import Mathlib.Data.Multiset.Basic
import SqlTree.Proofs.Compound.Operands
import SqlTree.Render.Compile

/-!
# Texts that say something else

Two or three selects without parentheses have one text however they are grouped, and the text is
read in one grouping.  It says what the tree says exactly if the operands may stand where they are
(`Query.denotes_of_stands_exact`).
-/

namespace SqlTree.Compound

open Classical in
/-- Cores that hold one row so many times, and queries that list their rows. -/
noncomputable def Assignment.ofCounts (count : Core → Nat) : Assignment Unit where
  core c := .replicate (count c) ()
  window _ _ s := s.toList
  coe_window_nil s := s.coe_toList

@[simp] theorem Assignment.core_ofCounts (count : Core → Nat) (c : Core) :
    (ofCounts count).core c = .replicate (count c) () := rfl

@[simp] theorem Assignment.window_ofCounts (count : Core → Nat) (before after : List Node)
    (s : Multiset Unit) : (ofCounts count).window before after s = s.toList := rfl

/-- Queries with clauses that have fixed rows, whatever theirs were. -/
noncomputable def Assignment.ofWindow (count : Nat) (rows : List Unit) : Assignment Unit where
  core _ := .replicate count ()
  window before after s := if before.isEmpty && after.isEmpty then s.toList else rows
  coe_window_nil s := s.coe_toList

/-- Two operations on three cores, the first one done first. -/
def leftGrouped (a b c : Core) (o p : Combination) : Chain :=
  .combined (.combined (.core a) o (.core b) {} false) p (.core c) {} false

/-- Two operations on three cores, the second one being the operand of the first. -/
def rightGrouped (a b c : Core) (o p : Combination) : Chain :=
  .combined (.core a) o (.combined (.core b) p (.core c) {} false) {} false

section Three

variable {a b c : Core} {o p : Combination}

theorem stands_leftGrouped :
    (leftGrouped a b c o p).Stands ↔ (p.operator = .intersect → o.operator = .intersect) := by
  simp [leftGrouped, Chain.Stands, Chain.sums, sum?]

theorem stands_rightGrouped :
    (rightGrouped a b c o p).Stands ↔ (p.operator = .intersect ∨ o.regroups p = true) := by
  by_cases hp : p.operator = .intersect <;>
    simp [rightGrouped, Chain.Stands, Chain.sums, sum?, hp]

/-- Of two groupings of a text one stands. -/
theorem stands_or_stands :
    (leftGrouped a b c o p).Stands ∨ (rightGrouped a b c o p).Stands := by
  rw [stands_leftGrouped, stands_rightGrouped]
  by_cases hp : p.operator = .intersect
  · exact .inr (.inl hp)
  · exact .inl fun h => absurd h hp

/-- If a text says what both groupings mean, the operations may be regrouped. -/
theorem regroups_of_denotes (hab : a ≠ b) (hac : a ≠ c) (hbc : b ≠ c) {clauses : Clauses}
    (hleft : Query.Denotes ⟨leftGrouped a b c o p, clauses⟩)
    (hright : Query.Denotes ⟨rightGrouped a b c o p, clauses⟩) : o.regroups p = true := by
  classical
  obtain ⟨f, hf, -, hanswer⟩ := hleft
  obtain ⟨g, -, hunique, hanswer'⟩ := hright
  obtain rfl : f = g := hunique f hf
  by_contra hne
  obtain ⟨l, m, n, hcount⟩ := Combination.exists_count_ne (Bool.eq_false_of_not_eq_true hne)
  let count (x : Core) : Nat := if x = a then l else if x = b then m else n
  have ha : count a = l := by simp [count]
  have hb : count b = m := by simp [count, hab.symm]
  have hc : count c = n := by simp [count, hac.symm, hbc.symm]
  have hlists := (hanswer Unit (.ofCounts count)).symm.trans (hanswer' Unit (.ofCounts count))
  have hbags := congrArg (fun l : List Unit => (l : Multiset Unit).count ()) hlists
  simp only [Query.answer, leftGrouped, rightGrouped, Chain.rows, Assignment.window_ofCounts,
    Assignment.core_ofCounts, Multiset.coe_toList, Combination.count_rows,
    Multiset.count_replicate_self, ha, hb, hc] at hbags
  exact hcount hbags.symm

theorem denotes_leftGrouped_iff (hab : a ≠ b) (hac : a ≠ c) (hbc : b ≠ c) (clauses : Clauses) :
    Query.Denotes ⟨leftGrouped a b c o p, clauses⟩ ↔ (leftGrouped a b c o p).Stands := by
  refine ⟨fun h => ?_, fun h => Query.denotes_of_stands h⟩
  obtain hleft | hright := stands_or_stands (a := a) (b := b) (c := c) (o := o) (p := p)
  · exact hleft
  · have hregroups := regroups_of_denotes hab hac hbc h (Query.denotes_of_stands hright)
    rw [stands_leftGrouped]
    exact Combination.intersect_of_regroups hregroups

theorem denotes_rightGrouped_iff (hab : a ≠ b) (hac : a ≠ c) (hbc : b ≠ c) (clauses : Clauses) :
    Query.Denotes ⟨rightGrouped a b c o p, clauses⟩ ↔ (rightGrouped a b c o p).Stands := by
  refine ⟨fun h => ?_, fun h => Query.denotes_of_stands h⟩
  obtain hleft | hright := stands_or_stands (a := a) (b := b) (c := c) (o := o) (p := p)
  · rw [stands_rightGrouped]
    exact .inr (regroups_of_denotes hab hac hbc (Query.denotes_of_stands hleft) h)
  · exact hright

end Three

/-- An operation on two cores, the operand with clauses of its own. -/
def withOperand (a b : Core) (o : Combination) (clauses : Clauses) (enclosed : Bool) : Chain :=
  .combined (.core a) o (.core b) clauses enclosed

section Two

variable {a b : Core} {o : Combination} {clauses : Clauses}

theorem stands_withOperand {enclosed : Bool} :
    (withOperand a b o clauses enclosed).Stands ↔
      (enclosed = false → clauses.before = [] ∧ clauses.after = []) := by
  simp [withOperand, Chain.Stands, Chain.sums]

/-- Without parentheses the clauses at the end of an operand are about the whole compound. -/
theorem reads_withOperand (hbefore : clauses.before = []) :
    Reads .query (Query.tokens ⟨withOperand a b o clauses false, {}⟩)
      (.query [] clauses.after (.combined o (.core a) (.core b))) := by
  have hsum : Reads .sum [.core a, .operation o, .core b]
      (.combined o (.core a) (.core b)) := by
    obtain ⟨operator, all⟩ := o
    cases operator with
    | intersect => exact .product (.intersect all (.operand (.core a)) (.core b))
    | _ => exact .combined (by simp) (.product (.operand (.core a))) (.operand (.core b))
  have hquery := Reads.query [] clauses.after hsum
  simpa [Query.tokens, framed, withOperand, Chain.tokens, operandTokens, hbefore] using hquery

theorem not_denotes_withOperand (hbefore : clauses.before = []) (hafter : clauses.after ≠ []) :
    ¬ Query.Denotes ⟨withOperand a b o clauses false, {}⟩ := by
  rintro ⟨f, -, hunique, hanswer⟩
  obtain rfl := hunique _ (reads_withOperand hbefore)
  -- The text has the rows of the window, the tree those and the rows of the first core.
  have hcount : ∀ (n : Nat) (rows : List Unit), rows.count () = o.count n (rows.count ()) := by
    intro n rows
    have hlists := hanswer Unit (.ofWindow n rows)
    have htree : rows = (o.rows (.replicate n ()) (rows : Multiset Unit)).toList := by
      simpa [Formula.answer, Query.answer, withOperand, Chain.rows, Assignment.ofWindow, hbefore,
        hafter] using hlists
    have hbags := congrArg (fun l : List Unit => (l : Multiset Unit).count ()) htree
    simpa [Combination.count_rows] using hbags
  have hone := hcount 0 [()]
  have hnone := hcount 1 []
  obtain ⟨operator, all⟩ := o
  cases operator with
  | intersect => cases all <;> cases hone
  | _ => cases all <;> cases hnone

theorem denotes_withOperand_iff {enclosed : Bool} (hbefore : clauses.before = []) :
    Query.Denotes ⟨withOperand a b o clauses enclosed, {}⟩ ↔
      (withOperand a b o clauses enclosed).Stands := by
  refine ⟨fun h => ?_, fun h => Query.denotes_of_stands h⟩
  rw [stands_withOperand]
  rintro rfl
  refine ⟨hbefore, ?_⟩
  by_contra hafter
  exact not_denotes_withOperand hbefore hafter h

end Two

/-- A query is written as its tokens, and says what its tree says if its operands may stand where
they are.  For two and three selects this is exact. -/
theorem Query.denotes_of_stands_exact :
    (∀ q : Query, (∀ d, q.select.node.pieces d = q.tokens.flatMap (Token.pieces d)) ∧
      (q.chain.Stands → q.Denotes)) ∧
    (∀ (a b : Core) (o : Combination) (clauses : Clauses) (enclosed : Bool), clauses.before = [] →
      (Query.Denotes ⟨withOperand a b o clauses enclosed, {}⟩ ↔
        (withOperand a b o clauses enclosed).Stands)) ∧
    ∀ (a b c : Core) (o p : Combination) (clauses : Clauses), a ≠ b → a ≠ c → b ≠ c →
      (Query.Denotes ⟨leftGrouped a b c o p, clauses⟩ ↔ (leftGrouped a b c o p).Stands) ∧
      (Query.Denotes ⟨rightGrouped a b c o p, clauses⟩ ↔ (rightGrouped a b c o p).Stands) := by
  refine ⟨fun q => ⟨fun d => q.pieces_eq d, Query.denotes_of_stands⟩, ?_, ?_⟩
  · intro a b o clauses enclosed hbefore
    exact denotes_withOperand_iff hbefore
  · intro a b c o p clauses hab hac hbc
    exact ⟨denotes_leftGrouped_iff hab hac hbc clauses,
      denotes_rightGrouped_iff hab hac hbc clauses⟩

/-- An operand in parentheses with a limit, in an intersection that is added to a table. -/
theorem denotes_union_intersect :
    let a := Core.ofTable "a"
    let b := Core.ofTable "b"
    let c := Core.ofTable "c"
    let single : Clauses := { limit := some ⟨.limit (.bound (.int 1))⟩ }
    let q : Query := ⟨.combined (.core a) ⟨.union, false⟩
      (.combined (.core b) ⟨.intersect, true⟩ (.core c) single true) {} false, {}⟩
    q.chain.Stands ∧ q.Denotes ∧ single.before = [] ∧
      Query.Denotes ⟨withOperand a b ⟨.except, true⟩ single true, {}⟩ ∧
      a ≠ b ∧ a ≠ c ∧ b ≠ c ∧
      Query.Denotes ⟨rightGrouped a b c ⟨.intersect, true⟩ ⟨.except, false⟩, single⟩ := by
  intro a b c single q
  have hstands : q.chain.Stands := by
    simp [q, Chain.Stands, Chain.sums, sum?]
  have hab : a ≠ b := Core.ofTable_injective.ne (by decide)
  have hac : a ≠ c := Core.ofTable_injective.ne (by decide)
  have hbc : b ≠ c := Core.ofTable_injective.ne (by decide)
  have h := Query.denotes_of_stands_exact
  refine ⟨hstands, (h.1 q).2 hstands, rfl, ?_, hab, hac, hbc, ?_⟩
  · exact (h.2.1 a b _ single true rfl).mpr (stands_withOperand.mpr Bool.noConfusion)
  · exact (h.2.2 a b c _ _ single hab hac hbc).2.mpr (stands_rightGrouped.mpr (.inr rfl))

/-- The rows of `a` that are neither in `b` nor in `c`: the text adds those in `c`. -/
theorem not_denotes_except_union :
    let q : Query := ⟨rightGrouped (.ofTable "a") (.ofTable "b") (.ofTable "c")
      ⟨.except, false⟩ ⟨.union, false⟩, {}⟩
    Piece.sql .postgres (q.select.node.pieces .postgres) =
      "select * from \"a\" except select * from \"b\" union select * from \"c\"" ∧
    ¬ q.Denotes := by
  intro q
  refine ⟨by decide +kernel, fun h => ?_⟩
  have hstands := (denotes_rightGrouped_iff (Core.ofTable_injective.ne (by decide))
    (Core.ofTable_injective.ne (by decide)) (Core.ofTable_injective.ne (by decide)) {}).mp h
  obtain hintersect | hregroups := stands_rightGrouped.mp hstands
  · cases hintersect
  · cases hregroups

end SqlTree.Compound
