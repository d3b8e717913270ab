import Mathlib.Algebra.Field.Rat
import Mathlib.Tactic.NormNum
import SqlTree.Proofs.Expression.Arithmetic

/-!
# Nested operations as they are read

A text of operations tells their order but not how they are nested.  A reader regroups them from the
left (`Arithmetic.regrouped`).  This is the nesting there was just where each part is tight enough
for its place, and it has the same value where only sums are added and only products multiplied on
the right of what they are part of (`Arithmetic.regroups`).
-/

namespace SqlTree

namespace Expression

namespace Arithmetic

/-- How loose the outermost operation binds. -/
def level : Arithmetic → Nat
  | .atom _ => 0
  | .joined o _ _ => o.level
  | .negative _ => 1
  | .parens _ => 0

@[simp] theorem level_atom (a : Atom) : (atom a).level = 0 := rfl

@[simp] theorem level_joined (o : Operation) (l r : Arithmetic) :
    (joined o l r).level = o.level := rfl

@[simp] theorem level_negative (e : Arithmetic) : e.negative.level = 1 := rfl

@[simp] theorem level_parens (e : Arithmetic) : e.parens.level = 0 := rfl

/-- Trees whose parts are tight enough for their places. -/
def Grouped : Arithmetic → Prop
  | .atom _ => True
  | .joined o l r => (l.Grouped ∧ l.level ≤ o.level) ∧ r.Grouped ∧ r.level < o.level
  | .negative e => e.Grouped ∧ e.level ≤ 1
  | .parens e => e.Grouped

instance decidableGrouped : (e : Arithmetic) → Decidable e.Grouped
  | .atom _ => inferInstanceAs (Decidable True)
  | .joined o l r =>
    have := decidableGrouped l
    have := decidableGrouped r
    inferInstanceAs
      (Decidable ((l.Grouped ∧ l.level ≤ o.level) ∧ r.Grouped ∧ r.level < o.level))
  | .negative e =>
    have := decidableGrouped e
    inferInstanceAs (Decidable (e.Grouped ∧ e.level ≤ 1))
  | .parens e => decidableGrouped e

theorem level_le (e : Arithmetic) : e.level ≤ 3 := by
  cases e with
  | joined o l r => exact o.level_le
  | _ => exact Nat.le_of_ble_eq_true rfl

theorem level_formula (e : Arithmetic) : e.formula.level = e.level := by
  cases e with
  | joined o l r => exact Formula.level_joined o.level?_joint _ _
  | _ => rfl

theorem grouped_formula {e : Arithmetic} : e.formula.Grouped ↔ e.Grouped := by
  induction e with
  | atom a => exact iff_of_true (.operand _) trivial
  | joined o l r ihl ihr =>
    obtain ⟨k, hk⟩ := Nat.exists_eq_add_of_lt o.one_lt_level
    have hlevel : o.joint.level? = some (k + 1 + 1) := by
      rw [o.level?_joint, hk, Nat.add_comm 1 k]
    rw [Grouped, ← ihl, ← ihr, ← level_formula l, ← level_formula r, hk, Nat.add_comm 1 k]
    constructor
    · intro h
      cases h with
      | joined hj hl hr hf hg =>
        cases hlevel.symm.trans hj
        exact ⟨⟨hl, hf⟩, hr, Nat.lt_succ_of_le hg⟩
    · rintro ⟨⟨hl, hf⟩, hr, hg⟩
      exact .joined hlevel hl hr hf (Nat.le_of_lt_succ hg)
  | negative e ih =>
    rw [Grouped, ← ih, ← level_formula e]
    constructor
    · intro h
      cases h with
      | signed h hf => exact ⟨h, hf⟩
    · exact fun h => .signed h.1 h.2
  | parens e ih =>
    rw [Grouped, ← ih]
    constructor
    · intro h
      cases h with
      | parens h hf => exact h
    · intro h
      refine .parens h ?_
      rw [level_formula]
      exact Nat.le_trans e.level_le (by decide)

/-- A reader takes the part of `l` that binds no looser as the left operand. -/
def attached : Arithmetic → Operation → Arithmetic → Arithmetic
  | .joined o' a b, o, r =>
    if o.level < o'.level then .joined o' a (attached b o r) else .joined o (.joined o' a b) r
  | l, o, r => .joined o l r

/-- A reader takes the operations of `r` one after the other. -/
def followed (l : Arithmetic) (o : Operation) : Arithmetic → Arithmetic
  | .joined o' a b =>
    if o'.level < o.level then attached l o (.joined o' a b) else attached (followed l o a) o' b
  | r => attached l o r

/-- A reader takes the first operand as what a sign belongs to. -/
def negated : Arithmetic → Arithmetic
  | .joined o a b => .joined o a.negated b
  | e => .negative e

/-- The tree that is read where this one is written. -/
def regrouped : Arithmetic → Arithmetic
  | .atom a => .atom a
  | .joined o l r => followed l.regrouped o r.regrouped
  | .negative e => e.regrouped.negated
  | .parens e => .parens e.regrouped

section Regrouped

variable (o : Operation) (l r : Arithmetic)

theorem spans_attached : (attached l o r).spans = l.spans ++ .joint o.joint :: r.spans := by
  induction l with
  | joined o' a b iha ihb =>
    rw [attached]
    split
    · rw [spans, ihb, spans, List.append_assoc, List.cons_append]
    · rfl
  | _ => rfl

theorem spans_followed : (followed l o r).spans = l.spans ++ .joint o.joint :: r.spans := by
  induction r with
  | joined o' a b iha ihb =>
    rw [followed]
    split
    · exact spans_attached o l _
    · rw [spans_attached, iha, spans, List.append_assoc, List.cons_append]
  | _ => exact spans_attached o l _

theorem spans_negated (e : Arithmetic) : e.negated.spans = .sign .minus :: e.spans := by
  induction e with
  | joined o a b iha ihb =>
    rw [negated, spans, iha]
    rfl
  | _ => rfl

theorem spans_regrouped (e : Arithmetic) : e.regrouped.spans = e.spans := by
  induction e with
  | atom a => rfl
  | joined o l r ihl ihr => rw [regrouped, spans_followed, ihl, ihr, spans]
  | negative e ih => rw [regrouped, spans_negated, ih, spans]
  | parens e ih => rw [regrouped, spans, ih, spans]

theorem level_attached : (attached l o r).level = max l.level o.level := by
  have ho := o.one_lt_level
  cases l with
  | joined o' a b =>
    rw [attached]
    split
    · simp only [level_joined]
      omega
    · simp only [level_joined]
      omega
  | _ =>
    simp only [attached, level_joined, level_atom, level_negative, level_parens]
    omega

theorem level_followed {r : Arithmetic} (h : r.Grouped) :
    (followed l o r).level = max l.level (max o.level r.level) := by
  have ho := o.one_lt_level
  induction r with
  | joined o' a b iha ihb =>
    obtain ⟨⟨ha, hla⟩, hb, hlb⟩ := h
    rw [followed]
    split
    · rw [level_attached, level_joined]
      omega
    · rw [level_attached, iha ha, level_joined]
      omega
  | _ =>
    show (attached l o _).level = _
    rw [level_attached]
    simp only [level_atom, level_negative, level_parens]
    omega

theorem level_negated {e : Arithmetic} : e.negated.level = max 1 e.level := by
  cases e with
  | joined o a b => exact (Nat.max_eq_right o.one_lt_level.le).symm
  | _ => rfl

theorem grouped_attached {l r : Arithmetic} (hl : l.Grouped) (hr : r.Grouped)
    (h : r.level < o.level) : (attached l o r).Grouped := by
  have ho := o.one_lt_level
  induction l with
  | joined o' a b iha ihb =>
    obtain ⟨⟨ha, hla⟩, hb, hlb⟩ := hl
    rw [attached]
    split
    · refine ⟨⟨ha, hla⟩, ihb hb, ?_⟩
      rw [level_attached]
      omega
    · exact ⟨⟨⟨⟨ha, hla⟩, hb, hlb⟩, by rw [level_joined]; omega⟩, hr, h⟩
  | _ =>
    refine ⟨⟨hl, ?_⟩, hr, h⟩
    simp only [level_atom, level_negative, level_parens]
    omega

theorem grouped_followed {l r : Arithmetic} (hl : l.Grouped) (hr : r.Grouped) :
    (followed l o r).Grouped := by
  have ho := o.one_lt_level
  induction r with
  | joined o' a b iha ihb =>
    rw [followed]
    split
    · rename_i hlt
      exact grouped_attached o hl hr hlt
    · exact grouped_attached o' (iha hr.1.1) hr.2.1 hr.2.2
  | _ =>
    apply grouped_attached o hl hr
    simp only [level_atom, level_negative, level_parens]
    omega

theorem grouped_negated {e : Arithmetic} (h : e.Grouped) : e.negated.Grouped := by
  induction e with
  | joined o a b iha ihb =>
    obtain ⟨⟨ha, hla⟩, hb, hlb⟩ := h
    refine ⟨⟨iha ha, ?_⟩, hb, hlb⟩
    rw [level_negated]
    have ho := o.one_lt_level
    omega
  | _ => exact ⟨h, by simp⟩

theorem grouped_regrouped (e : Arithmetic) : e.regrouped.Grouped := by
  induction e with
  | atom a => trivial
  | joined o l r ihl ihr => exact grouped_followed o ihl ihr
  | negative e ih => exact grouped_negated ih
  | parens e ih => exact ih

end Regrouped

/-- How loose the loosest operation outside parentheses binds. -/
def breadth : Arithmetic → Nat
  | .atom _ => 0
  | .joined o l r => max l.breadth (max o.level r.breadth)
  | .negative e => max 1 e.breadth
  | .parens _ => 0

theorem level_regrouped (e : Arithmetic) : e.regrouped.level = e.breadth := by
  induction e with
  | atom a => rfl
  | joined o l r ihl ihr =>
    rw [regrouped, level_followed _ _ r.grouped_regrouped, ihl, ihr, breadth]
  | negative e ih => rw [regrouped, level_negated, ih, breadth]
  | parens e ih => rfl

end Arithmetic

/-- How loose the right operand of an operation may be for its value to stay. -/
def Operation.rightLevel : Operation → Nat
  | .add => 3
  | .sub => 2
  | .mul => 2
  | .div => 1

theorem Operation.level_le_rightLevel (o : Operation) : o.level ≤ o.rightLevel + 1 := by
  cases o <;> decide

namespace Arithmetic

/-- Trees whose value does not depend on how a reader groups them: no sum is a factor, is divided,
is subtracted or stands below a sign, and what something is divided by is no product. -/
def Stands : Arithmetic → Prop
  | .atom _ => True
  | .joined o l r => (l.Stands ∧ l.breadth ≤ o.level) ∧ r.Stands ∧ r.breadth ≤ o.rightLevel
  | .negative e => e.Stands ∧ e.breadth ≤ 2
  | .parens e => e.Stands

instance decidableStands : (e : Arithmetic) → Decidable e.Stands
  | .atom _ => inferInstanceAs (Decidable True)
  | .joined o l r =>
    have := decidableStands l
    have := decidableStands r
    inferInstanceAs
      (Decidable ((l.Stands ∧ l.breadth ≤ o.level) ∧ r.Stands ∧ r.breadth ≤ o.rightLevel))
  | .negative e =>
    have := decidableStands e
    inferInstanceAs (Decidable (e.Stands ∧ e.breadth ≤ 2))
  | .parens e => decidableStands e

end Arithmetic

namespace Operation

variable {K : Type} [DivisionRing K] [DecidableEq K] {o o' : Operation} (x y z : Option K)

/-- Sums and products may be taken part by part. -/
theorem apply_apply (ho : o = .add ∨ o = .mul) (hlevel : o'.level = o.level) :
    o.apply x (o'.apply y z) = o'.apply (o.apply x y) z := by
  cases x with
  | none => rfl
  | some a =>
    cases y with
    | none => rfl
    | some b =>
      cases z with
      | none => obtain rfl | rfl := ho <;> rfl
      | some c =>
        obtain rfl | rfl := ho
        · cases o' with
          | add => simp [apply, value, add_assoc]
          | sub => simp [apply, value, add_sub_assoc]
          | _ => cases hlevel
        · cases o' with
          | mul => simp [apply, value, mul_assoc]
          | div => by_cases hc : c = 0 <;> simp [apply, value, hc, mul_div_assoc]
          | _ => cases hlevel

/-- A sign may stand before the first factor. -/
theorem apply_neg (ho : o.level = 2) :
    o.apply (x.map Neg.neg) y = (o.apply x y).map Neg.neg := by
  cases x with
  | none => rfl
  | some a =>
    cases y with
    | none => rfl
    | some b =>
      cases o with
      | mul => simp [apply, value]
      | div => by_cases hb : b = 0 <;> simp [apply, value, hb, neg_div]
      | _ => cases ho

/-- What may stand on the right of an operation binds tighter, but below a sum or a product. -/
theorem of_level_le_rightLevel (h : o.level ≤ o'.level) (h' : o'.level ≤ o.rightLevel) :
    (o = .add ∨ o = .mul) ∧ o'.level = o.level := by
  revert h h'
  cases o <;> cases o' <;> decide

section Rational

variable {o o' : Operation}

-- On 7, 3 and 2 two operations agree with another grouping of them only if they always do.

theorem left_ne (h : o.level < o'.level) :
    o'.apply (some 7) (o.apply (some 3) (some 2)) ≠
      o.apply (o'.apply (some 7) (some 3)) (some (2 : ℚ)) := by
  cases o <;> cases o' <;> first | exact absurd h (by decide) | norm_num [apply, value]

theorem right_ne (h : o.rightLevel < o'.level) :
    o'.apply (o.apply (some 7) (some 3)) (some 2) ≠
      o.apply (some 7) (o'.apply (some 3) (some (2 : ℚ))) := by
  cases o <;> cases o' <;> first | exact absurd h (by decide) | norm_num [apply, value]

theorem negative_ne (h : 2 < o.level) :
    o.apply ((some 7).map Neg.neg) (some 3) ≠
      (o.apply (some 7) (some (3 : ℚ))).map Neg.neg := by
  cases o <;> first | exact absurd h (by decide) | norm_num [apply, value]

end Rational

end Operation

namespace Arithmetic

section Value

variable {K : Type} [DivisionRing K] [DecidableEq K] (ρ : Node → Option K)

theorem attached_of_le {o : Operation} {l : Arithmetic} (h : l.level ≤ o.level) (r : Arithmetic) :
    attached l o r = .joined o l r := by
  cases l with
  | joined o' a b => exact if_neg (Nat.not_lt.mpr h)
  | _ => rfl

theorem value_followed {o : Operation} {l r : Arithmetic} (hl : l.level ≤ o.level)
    (hr : r.Grouped) (h : r.level ≤ o.rightLevel) :
    (followed l o r).value ρ = o.apply (l.value ρ) (r.value ρ) := by
  induction r with
  | joined o' a b iha ihb =>
    obtain ⟨⟨ha, hla⟩, -, -⟩ := hr
    rw [followed]
    split
    · rw [attached_of_le hl, value]
    · rename_i hle
      obtain ⟨ho, hlevel⟩ := Operation.of_level_le_rightLevel (Nat.not_lt.mp hle) h
      have hfollowed : (followed l o a).level ≤ o'.level := by
        rw [level_followed o l ha, hlevel]
        omega
      rw [attached_of_le hfollowed, value, iha ha (hla.trans h), value,
        Operation.apply_apply _ _ _ ho hlevel]
  | _ =>
    show (attached l o _).value ρ = _
    rw [attached_of_le hl]
    rfl

theorem value_negated {e : Arithmetic} (h : e.Grouped) (hlevel : e.level ≤ 2) :
    e.negated.value ρ = (e.value ρ).map Neg.neg := by
  induction e with
  | joined o a b iha ihb =>
    obtain ⟨⟨ha, hla⟩, -, -⟩ := h
    have ho : o.level = 2 := Nat.le_antisymm hlevel o.one_lt_level
    rw [negated, value, iha ha (hla.trans hlevel), Operation.apply_neg _ _ ho, value]
  | _ => rfl

theorem value_regrouped {e : Arithmetic} (h : e.Stands) : e.regrouped.value ρ = e.value ρ := by
  induction e with
  | atom a => rfl
  | joined o l r ihl ihr =>
    obtain ⟨⟨hl, hbl⟩, hr, hbr⟩ := h
    rw [← level_regrouped] at hbl hbr
    rw [regrouped, value_followed ρ hbl r.grouped_regrouped hbr, ihl hl, ihr hr, value]
  | negative e ih =>
    obtain ⟨he, hb⟩ := h
    rw [← level_regrouped] at hb
    rw [regrouped, value_negated ρ e.grouped_regrouped hb, ih he, value]
  | parens e ih =>
    rw [regrouped, value, ih h, value]

end Value

/-- Two operations on different references. -/
inductive Twofold : Arithmetic → Prop
  | left (o o' : Operation) {i j k : String} {a b c : Node} (ha : Read.reference i = .ok a)
    (hb : Read.reference j = .ok b) (hc : Read.reference k = .ok c) (hab : a ≠ b) (hac : a ≠ c)
    (hbc : b ≠ c) :
    Twofold (.joined o (.joined o' (.atom (.reference ha)) (.atom (.reference hb)))
      (.atom (.reference hc)))
  | right (o o' : Operation) {i j k : String} {a b c : Node} (ha : Read.reference i = .ok a)
    (hb : Read.reference j = .ok b) (hc : Read.reference k = .ok c) (hab : a ≠ b) (hac : a ≠ c)
    (hbc : b ≠ c) :
    Twofold (.joined o (.atom (.reference ha))
      (.joined o' (.atom (.reference hb)) (.atom (.reference hc))))
  | negative (o : Operation) {i j : String} {a b : Node} (ha : Read.reference i = .ok a)
    (hb : Read.reference j = .ok b) (hab : a ≠ b) :
    Twofold (.negative (.joined o (.atom (.reference ha)) (.atom (.reference hb))))

theorem Twofold.stands {e : Arithmetic} (he : e.Twofold)
    (h : ∀ ρ : Node → Option ℚ, e.regrouped.value ρ = e.value ρ) : e.Stands := by
  classical
  by_contra hstands
  let ρ (a b n : Node) : Option ℚ := if n = a then some 7 else if n = b then some 3 else some 2
  cases he with
  | @left o o' i j k a b c ha hb hc hab hac hbc =>
    have hlevel : o.level < o'.level := by simpa [Stands, breadth] using hstands
    have hρ := h (ρ a b)
    simp only [regrouped, followed, attached, if_pos hlevel, value, Atom.node, Atom.operand,
      Operand.bound, ρ, if_pos, hab.symm, hac.symm, hbc.symm, if_false] at hρ
    exact Operation.left_ne hlevel hρ
  | @right o o' i j k a b c ha hb hc hab hac hbc =>
    have hlevel : o.rightLevel < o'.level := by simpa [Stands, breadth] using hstands
    have hρ := h (ρ a b)
    have hle : ¬ o'.level < o.level := by
      have hright := o.level_le_rightLevel
      omega
    simp only [regrouped, followed, attached, if_neg hle, value, Atom.node, Atom.operand,
      Operand.bound, ρ, if_pos, hab.symm, hac.symm, hbc.symm, if_false] at hρ
    exact Operation.right_ne hlevel hρ
  | @negative o i j a b ha hb hab =>
    have hlevel : 2 < o.level := by simpa [Stands, breadth] using hstands
    have hρ := h (ρ a b)
    simp only [regrouped, followed, attached, negated, value, Atom.node, Atom.operand,
      Operand.bound, ρ, if_pos, hab.symm, if_false] at hρ
    exact Operation.negative_ne hlevel hρ

variable (e : Arithmetic) (d : Dialect)

theorem reads_formula_iff : Reads loosest (e.spans.map Span.word) e.formula ↔ e.Grouped := by
  rw [reads_iff_grouped, grouped_formula, level_formula, words_formula]
  exact and_iff_left ⟨e.level_le.trans (by decide), rfl⟩

/-- The one reading of a tree. -/
theorem reads_iff_regrouped {φ : Formula} :
    Reads loosest (e.spans.map Span.word) φ ↔ φ = e.regrouped.formula := by
  have hreads : Reads loosest (e.spans.map Span.word) e.regrouped.formula := by
    rw [← spans_regrouped]
    exact e.regrouped.reads_formula_iff.mpr e.grouped_regrouped
  exact ⟨fun h => h.unique hreads, fun h => h ▸ hreads⟩

/-- Where no sign opens a comment, nested operations are read in one way.  This is how they are
nested just where they are grouped.  It has the value that they have where they stand, and of two
operations where they stand only. -/
theorem regroups (h : ¬ Piece.SignBeforeHyphen d (e.node.pieces d)) :
    e.built = .ok e.node ∧
      (∃ c ls, e.node.compile d = .ok c ∧
        c.sql = Piece.sql d (e.spans.flatMap (Span.pieces d)) ∧ d.lexemes? c.sql = some ls ∧
        ¬ [.bare '-', .bare '-'] <:+: ls ∧ ¬ [.bare '/', .bare '*'] <:+: ls) ∧
      ∃ φ, (∀ ψ, Reads loosest (e.spans.map Span.word) ψ ↔ ψ = φ) ∧
        (φ = e.formula ↔ e.Grouped) ∧
        (e.Stands → ∀ (K : Type) [DivisionRing K] [DecidableEq K] (ρ : Node → Option K),
          φ.value ρ = e.value ρ) ∧
        (e.Twofold → (∀ ρ : Node → Option ℚ, φ.value ρ = e.value ρ) → e.Stands) := by
  refine ⟨e.built_eq_node, e.compile_node d h, e.regrouped.formula,
    fun ψ => e.reads_iff_regrouped, ?_, ?_, ?_⟩
  · rw [← e.reads_formula_iff, e.reads_iff_regrouped, eq_comm]
  · intro hstands K _ _ ρ
    rw [value_formula, value_regrouped ρ hstands]
  · intro htwofold hvalue
    exact htwofold.stands fun ρ => (value_formula ρ _).symm.trans (hvalue ρ)

/-- A negative of a product with a quotient in it is read from the left, with the same value. -/
theorem regroups_negative_product :
    let a : Atom := .reference (rfl : Read.reference "a" = .ok (.column "a"))
    let e : Arithmetic := .negative (.joined .mul (.atom a)
      (.joined .div (.atom (.bound (.int 3))) (.atom (.literal (.int (-2))))))
    ¬ Piece.SignBeforeHyphen .postgres (e.node.pieces .postgres) ∧ e.Stands ∧ ¬ e.Grouped ∧
      ∃ n c, e.built = .ok n ∧ n.compile .postgres = .ok c ∧ c.sql = "-\"a\" * $1 / -2" ∧
        ∃ φ, Reads loosest (e.spans.map Span.word) φ ∧ φ ≠ e.formula ∧
          ∀ ρ : Node → Option ℚ, φ.value ρ = e.value ρ := by
  intro a e
  have hsign : ¬ Piece.SignBeforeHyphen .postgres (e.node.pieces .postgres) := by
    obtain ⟨ls, hls, -, hhyphens⟩ :=
      Node.commented_pieces (d := .postgres) (e.settled_node CommentFree)
    have hsql : Piece.sql .postgres (e.node.pieces .postgres) = "-\"a\" * $1 / -2" := by decide
    have hread : Dialect.lexemes? .postgres "-\"a\" * $1 / -2" =
        some [.bare '-', .quoted .name "a", .bare ' ', .bare '*', .bare ' ', .bare '$', .bare '1',
          .bare ' ', .bare '/', .bare ' ', .bare '-', .bare '2'] := by decide
    rw [hsql, hread] at hls
    cases hls
    exact fun h => absurd (hhyphens.mpr h) (by decide)
  have hstands : e.Stands := by decide
  have hgrouped : ¬ e.Grouped := by decide
  obtain ⟨hbuilt, ⟨c, ls, hc, hsql, -⟩, φ, hφ, hformula, hvalue, -⟩ := regroups e .postgres hsign
  exact ⟨hsign, hstands, hgrouped, e.node, c, hbuilt, hc, hsql.trans (by decide), φ,
    (hφ φ).mpr rfl, fun h => hgrouped (hformula.mp h), hvalue hstands ℚ⟩

/-- A difference on the right of another is read as if it stood on the left. -/
theorem regroups_sub_sub :
    let e : Arithmetic := .joined .sub
      (.atom (.reference (rfl : Read.reference "a" = .ok (.column "a"))))
      (.joined .sub
        (.atom (.reference (rfl : Read.reference "b" = .ok (.column "b"))))
        (.atom (.reference (rfl : Read.reference "c" = .ok (.column "c")))))
    ∃ n c φ, ∃ ρ : Node → Option ℚ, e.built = .ok n ∧ n.compile .postgres = .ok c ∧
      c.sql = "\"a\" - \"b\" - \"c\"" ∧
      (∀ ψ, Reads loosest (e.spans.map Span.word) ψ ↔ ψ = φ) ∧
      φ.value ρ = some 2 ∧ e.value ρ = some 6 := by
  intro e
  let ρ (n : Node) : Option ℚ :=
    if n.columnName? = some "a" then some 7 else if n.columnName? = some "b" then some 3 else some 2
  have hread : e.regrouped.value ρ = some 2 := by
    show some ((7 : ℚ) - 3 - 2) = some 2
    norm_num
  have hvalue : e.value ρ = some 6 := by
    show some ((7 : ℚ) - (3 - 2)) = some 6
    norm_num
  exact ⟨e.node, _, _, ρ, e.built_eq_node, Node.compile_of_no_refusal (by decide) rfl, by decide,
    fun ψ => e.reads_iff_regrouped, (value_formula ρ _).trans hread, hvalue⟩

end Arithmetic

end Expression

end SqlTree