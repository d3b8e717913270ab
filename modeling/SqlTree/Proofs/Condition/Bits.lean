import SqlTree.Proofs.Condition.Filter
import SqlTree.Proofs.Pass.Recompiling

/-!
# Tests for truth as comparisons with a bit

Where there are no truth values, `is` and `is not` with a truth value become an equation with a bit
and its denial.  A test has an outcome also where its column holds null, a comparison with a bit has
none.  So a condition loses outcomes and gains none, and it keeps its rows as long as null is in no
column of an `is not` that stands plainly or of an `is` that stands negated.  Where every column is
tested once, just these tests lose rows (`Condition.selects_adapted`).
-/

namespace SqlTree

namespace Condition

namespace Truth

/-- The truth value of a sign. -/
def ofSign : Bool → Truth
  | true => .yes
  | false => .no

/-- The same outcome, or none. -/
def Fades (t u : Truth) : Prop := u = t ∨ u = .unknown

instance (t u : Truth) : Decidable (t.Fades u) :=
  inferInstanceAs (Decidable (u = t ∨ u = .unknown))

variable {s t s' t' : Truth}

theorem both_eq_yes : s.both t = .yes ↔ s = .yes ∧ t = .yes := by
  cases s <;> cases t <;> decide

theorem both_eq_no : s.both t = .no ↔ s = .no ∨ t = .no := by
  cases s <;> cases t <;> decide

theorem either_eq_yes : s.either t = .yes ↔ s = .yes ∨ t = .yes := by
  cases s <;> cases t <;> decide

theorem either_eq_no : s.either t = .no ↔ s = .no ∧ t = .no := by
  cases s <;> cases t <;> decide

theorem negation_eq_ofSign (sign : Bool) : t.negation = ofSign sign ↔ t = ofSign (!sign) := by
  cases t <;> cases sign <;> decide

theorem Fades.both (hs : s.Fades s') (ht : t.Fades t') : (s.both t).Fades (s'.both t') := by
  cases s <;> cases t <;> obtain rfl | rfl := hs <;> obtain rfl | rfl := ht <;> decide

theorem Fades.either (hs : s.Fades s') (ht : t.Fades t') : (s.either t).Fades (s'.either t') := by
  cases s <;> cases t <;> obtain rfl | rfl := hs <;> obtain rfl | rfl := ht <;> decide

theorem Fades.negation (h : t.Fades t') : t.negation.Fades t'.negation := by
  cases t <;> obtain rfl | rfl := h <;> decide

/-- Where there is an outcome, it is the one there was. -/
theorem Fades.eq_ofSign (h : t.Fades t') {sign : Bool} (ht : t' = ofSign sign) :
    t = ofSign sign := by
  obtain rfl | rfl := h
  · exact ht
  · cases sign <;> cases ht

end Truth

/-- What a row holds: null or a truth value, stored as a bit, in what is compared with bits and
truth values; and the outcomes of all other comparisons. -/
structure Bits where
  held : Node → Option Bool
  other : Node → Truth

namespace Bits

/-- An equation with a number. -/
def equation (held : Option Bool) (n : Int64) : Truth :=
  held.elim .unknown fun b => if (if b then 1 else 0) = n then .yes else .no

/-- The outcome of a comparison. -/
def outcome (ρ : Bits) (n : Node) : Truth :=
  match n with
  | ⟨.binaryOperation l ⟨.operator .is⟩ ⟨.value (.bool b) _⟩⟩ =>
    if ρ.held l = some b then .yes else .no
  | ⟨.binaryOperation l ⟨.operator .isNot⟩ ⟨.value (.bool b) _⟩⟩ =>
    if ρ.held l = some b then .no else .yes
  | ⟨.binaryOperation l ⟨.operator .eq⟩ ⟨.value (.int i) _⟩⟩ => equation (ρ.held l) i
  | ⟨.binaryOperation l ⟨.operator .notEqual⟩ ⟨.value (.int i) _⟩⟩ =>
    (equation (ρ.held l) i).negation
  | n => ρ.other n

/-- The truth value of a condition. -/
def truth (ρ : Bits) : Node → Truth :=
  Node.para fun n s =>
    match s with
    | .and l r => l.2.both r.2
    | .or l r => l.2.either r.2
    | .parens c => c.2
    | .unaryOperation (⟨.operator .not⟩, _) c => c.2.negation
    | _ => ρ.outcome n

variable (ρ : Bits)

theorem truth_binary (l : Node) (op : Operator) (r : Node) :
    ρ.truth (.binary l op r) = ρ.outcome (.binary l op r) := by
  rw [Node.binary, truth, Node.para_mk, Shape.map_eq_each]
  rfl

theorem truth_both (l r : Node) : ρ.truth (l.both r) = (ρ.truth l).both (ρ.truth r) := by
  rw [Node.both, truth, Node.para_mk, Shape.map_eq_each]
  rfl

theorem truth_either (l r : Node) : ρ.truth (l.either r) = (ρ.truth l).either (ρ.truth r) := by
  rw [Node.either, truth, Node.para_mk, Shape.map_eq_each]
  rfl

theorem truth_parens (n : Node) : ρ.truth n.parens = ρ.truth n := by
  rw [Node.parens, truth, Node.para_mk, Shape.map_eq_each]
  rfl

theorem truth_negation (n : Node) : ρ.truth n.negation = (ρ.truth n).negation := by
  rw [Node.negation, Node.unary, truth, Node.para_mk, Shape.map_eq_each]
  rfl

end Bits

/-- The comparisons of a condition, each with the sign of its place: whether it stands plainly or
negated. -/
def places : Node → Bool → List (Node × Bool) :=
  Node.para fun n s sign =>
    match s with
    | .and l r => l.2 sign ++ r.2 sign
    | .or l r => l.2 sign ++ r.2 sign
    | .parens c => c.2 sign
    | .unaryOperation (⟨.operator .not⟩, _) c => c.2 (!sign)
    | _ => [(n, sign)]

section Places

variable (sign : Bool)

theorem places_binary (l : Node) (op : Operator) (r : Node) :
    places (.binary l op r) sign = [(.binary l op r, sign)] := by
  rw [Node.binary, places, Node.para_mk, Shape.map_eq_each]
  rfl

theorem places_both (l r : Node) : places (l.both r) sign = places l sign ++ places r sign := by
  rw [Node.both, places, Node.para_mk, Shape.map_eq_each]
  rfl

theorem places_either (l r : Node) :
    places (l.either r) sign = places l sign ++ places r sign := by
  rw [Node.either, places, Node.para_mk, Shape.map_eq_each]
  rfl

theorem places_parens (n : Node) : places n.parens sign = places n sign := by
  rw [Node.parens, places, Node.para_mk, Shape.map_eq_each]
  rfl

theorem places_negation (n : Node) : places n.negation sign = places n (!sign) := by
  rw [Node.negation, Node.unary, places, Node.para_mk, Shape.map_eq_each]
  rfl

end Places

/-- Tests of a column that are met by null where they stand, which a comparison with a bit is not:
`is not` where it stands plainly, `is` where it is negated. -/
inductive Lossy (column : Node) : Node → Bool → Prop
  | isNot (b immediate : Bool) :
    Lossy column (.binary column .isNot ⟨.value (.bool b) immediate⟩) true
  | is (b immediate : Bool) :
    Lossy column (.binary column .is ⟨.value (.bool b) immediate⟩) false

/-- Such a test stands in a condition. -/
def Loses (column n : Node) (sign : Bool) : Prop := ∃ x ∈ places n sign, Lossy column x.1 x.2

section Loses

variable {column : Node} {sign : Bool}

theorem loses_binary {l : Node} {op : Operator} {r : Node} :
    Loses column (.binary l op r) sign ↔ Lossy column (.binary l op r) sign := by
  simp only [Loses, places_binary, List.mem_singleton, exists_eq_left]

theorem loses_both {l r : Node} :
    Loses column (l.both r) sign ↔ Loses column l sign ∨ Loses column r sign := by
  simp only [Loses, places_both, List.mem_append, or_and_right, exists_or]

theorem loses_either {l r : Node} :
    Loses column (l.either r) sign ↔ Loses column l sign ∨ Loses column r sign := by
  simp only [Loses, places_either, List.mem_append, or_and_right, exists_or]

theorem loses_parens {n : Node} : Loses column n.parens sign ↔ Loses column n sign := by
  rw [Loses, places_parens, Loses]

theorem loses_negation {n : Node} : Loses column n.negation sign ↔ Loses column n (!sign) := by
  rw [Loses, places_negation, Loses]

end Loses

/-- Conditions whose comparisons have sides that are left as they are, as columns and values are. -/
inductive OnColumns : Node → Prop
  | binary {l r : Node} (op : Operator) (hl : l.Unchanged (Dialect.adapt .mssql))
    (hr : r.Unchanged (Dialect.adapt .mssql)) : OnColumns (.binary l op r)
  | both {l r : Node} (hl : OnColumns l) (hr : OnColumns r) : OnColumns (l.both r)
  | either {l r : Node} (hl : OnColumns l) (hr : OnColumns r) : OnColumns (l.either r)
  | parens {n : Node} (h : OnColumns n) : OnColumns n.parens
  | negation {n : Node} (h : OnColumns n) : OnColumns n.negation

theorem unchanged_value (v : Value) (immediate : Bool) :
    Node.Unchanged (Dialect.adapt .mssql) ⟨.value v immediate⟩ :=
  Node.unchanged_iff.mpr ⟨rfl, List.forall_mem_nil _⟩

/-- A condition with the comparisons that take the place of its tests. -/
def bitwise (n : Node) : Node := n.rewrite (Dialect.adapt .mssql)

theorem bitwise_both (l r : Node) : bitwise (l.both r) = (bitwise l).both (bitwise r) :=
  Dialect.rewrite_adapt_mk .mssql (s := .and l r) nofun nofun

theorem bitwise_either (l r : Node) : bitwise (l.either r) = (bitwise l).either (bitwise r) :=
  Dialect.rewrite_adapt_mk .mssql (s := .or l r) nofun nofun

theorem bitwise_parens (n : Node) : bitwise n.parens = (bitwise n).parens :=
  Dialect.rewrite_adapt_mk .mssql (s := .parens n) nofun nofun

theorem bitwise_negation (n : Node) : bitwise n.negation = (bitwise n).negation := by
  have hop : Node.rewrite (Dialect.adapt .mssql) ⟨.operator .not⟩ = ⟨.operator .not⟩ :=
    Dialect.rewrite_adapt_mk .mssql nofun nofun
  have hunary := Dialect.rewrite_adapt_mk .mssql
    (s := .unaryOperation ⟨.operator .not⟩ n) nofun nofun
  rw [Shape.each, hop] at hunary
  exact hunary

theorem bitwise_binary {l r : Node} (op : Operator) (hl : l.Unchanged (Dialect.adapt .mssql))
    (hr : r.Unchanged (Dialect.adapt .mssql)) :
    bitwise (.binary l op r) = bitComparison (.binary l op r) := by
  have hop : Node.rewrite (Dialect.adapt .mssql) ⟨.operator op⟩ = ⟨.operator op⟩ :=
    Dialect.rewrite_adapt_mk .mssql nofun nofun
  rw [bitwise, Node.binary, Node.rewrite_mk, Shape.map_eq_each, Shape.each, hop,
    Node.rewrite_of_unchanged hl, Node.rewrite_of_unchanged hr]
  rfl

section Test

variable (ρ : Bits) (column : Node) (positive b immediate : Bool)

/-- A test for a truth value, or for anything else. -/
def test : Node :=
  .binary column (if positive then .is else .isNot) ⟨.value (.bool b) immediate⟩

/-- A comparison with the bit of a truth value, equal or not. -/
def bitTest : Node :=
  .binary column (if positive then .eq else .notEqual) (.literal (.int (if b then 1 else 0)))

theorem exists_eq_test {l r : Node} {op : Operator} (h : Node.IsTest (.binary l op r)) :
    ∃ positive b immediate, Node.binary l op r = test l positive b immediate := by
  obtain ⟨⟨o, ho, htest⟩, b, immediate, rfl⟩ := Node.isTest_binaryOperation.mp h
  cases ho
  revert htest
  unfold bitOperator?
  split
  · exact fun _ => ⟨true, b, immediate, rfl⟩
  · exact fun _ => ⟨false, b, immediate, rfl⟩
  · exact nofun

theorem bitComparison_eq_bitTest :
    bitComparison (test column positive b immediate) = bitTest column positive b := by
  cases positive <;> rfl

theorem outcome_test : ρ.outcome (test column positive b immediate) =
    .ofSign ((ρ.held column == some b) == positive) := by
  cases positive with
  | true =>
    show (if ρ.held column = some b then Truth.yes else .no) = _
    cases ρ.held column with
    | none => rfl
    | some c => cases b <;> cases c <;> rfl
  | false =>
    show (if ρ.held column = some b then Truth.no else .yes) = _
    cases ρ.held column with
    | none => rfl
    | some c => cases b <;> cases c <;> rfl

theorem outcome_bitTest : ρ.outcome (bitTest column positive b) =
    (ρ.held column).elim .unknown fun c => .ofSign ((c == b) == positive) := by
  cases positive with
  | true =>
    show Bits.equation (ρ.held column) (if b then 1 else 0) = _
    cases ρ.held column with
    | none => rfl
    | some c => cases b <;> cases c <;> rfl
  | false =>
    show (Bits.equation (ρ.held column) (if b then 1 else 0)).negation = _
    cases ρ.held column with
    | none => rfl
    | some c => cases b <;> cases c <;> rfl

theorem lossy_test : Lossy column (test column positive b immediate) (!positive) := by
  cases positive
  · exact .isNot b immediate
  · exact .is b immediate

end Test

section Outcome

variable (ρ : Bits) {l r : Node} {op : Operator}

/-- A comparison with a bit has the outcome of the test or none. -/
theorem fades_bitComparison :
    (ρ.outcome (.binary l op r)).Fades (ρ.truth (bitComparison (.binary l op r))) := by
  by_cases ht : Node.IsTest (.binary l op r)
  · obtain ⟨positive, b, immediate, h⟩ := exists_eq_test ht
    rw [h, bitComparison_eq_bitTest, outcome_test, bitTest, ρ.truth_binary, ← bitTest,
      outcome_bitTest]
    cases ρ.held l with
    | none => exact .inr rfl
    | some c => exact .inl rfl
  · rw [bitComparison_eq_self ht, ρ.truth_binary]
    exact .inl rfl

/-- Where null is in no column of a test that loses it, what is met stays so. -/
theorem truth_bitComparison {sign : Bool} (h : Lossy l (.binary l op r) sign → ρ.held l ≠ none)
    (htruth : ρ.outcome (.binary l op r) = .ofSign sign) :
    ρ.truth (bitComparison (.binary l op r)) = .ofSign sign := by
  by_cases ht : Node.IsTest (.binary l op r)
  · obtain ⟨positive, b, immediate, htest⟩ := exists_eq_test ht
    rw [htest, outcome_test] at htruth
    rw [htest] at h
    rw [htest, bitComparison_eq_bitTest, bitTest, ρ.truth_binary, ← bitTest, outcome_bitTest]
    cases hheld : ρ.held l with
    | none =>
      rw [hheld] at h htruth
      have hsign : sign = !positive := by cases positive <;> cases sign <;> trivial
      exact absurd rfl (h (hsign ▸ lossy_test l positive b immediate))
    | some c => rwa [hheld] at htruth
  · rwa [bitComparison_eq_self ht, ρ.truth_binary]

end Outcome

/-- A row with null in no column of a test that would lose it. -/
def Bits.Spares (ρ : Bits) (n : Node) (sign : Bool) : Prop :=
  ∀ column, Loses column n sign → ρ.held column ≠ none

section Spared

variable (ρ : Bits) {n : Node}

/-- A condition loses outcomes and gains none. -/
theorem fades_bitwise (h : OnColumns n) : (ρ.truth n).Fades (ρ.truth (bitwise n)) := by
  induction h with
  | binary op hl hr =>
    rw [bitwise_binary op hl hr, ρ.truth_binary]
    exact fades_bitComparison ρ
  | both hl hr ihl ihr =>
    rw [bitwise_both, ρ.truth_both, ρ.truth_both]
    exact ihl.both ihr
  | either hl hr ihl ihr =>
    rw [bitwise_either, ρ.truth_either, ρ.truth_either]
    exact ihl.either ihr
  | parens h ih =>
    rwa [bitwise_parens, ρ.truth_parens, ρ.truth_parens]
  | negation h ih =>
    rw [bitwise_negation, ρ.truth_negation, ρ.truth_negation]
    exact ih.negation

/-- A row that is spared keeps its outcome, with the signs of the tests turned where it is no. -/
theorem truth_bitwise_of_spares (h : OnColumns n) {sign : Bool} (hspares : ρ.Spares n sign)
    (ht : ρ.truth n = .ofSign sign) : ρ.truth (bitwise n) = .ofSign sign := by
  induction h generalizing sign with
  | binary op hl hr =>
    rw [ρ.truth_binary] at ht
    rw [bitwise_binary op hl hr]
    exact truth_bitComparison ρ (fun hlossy => hspares _ (loses_binary.mpr hlossy)) ht
  | both hl hr ihl ihr =>
    replace ihl := @ihl sign fun c hc => hspares c (loses_both.mpr (.inl hc))
    replace ihr := @ihr sign fun c hc => hspares c (loses_both.mpr (.inr hc))
    rw [ρ.truth_both] at ht
    rw [bitwise_both, ρ.truth_both]
    cases sign with
    | true => exact Truth.both_eq_yes.mpr ((Truth.both_eq_yes.mp ht).imp ihl ihr)
    | false => exact Truth.both_eq_no.mpr ((Truth.both_eq_no.mp ht).imp ihl ihr)
  | either hl hr ihl ihr =>
    replace ihl := @ihl sign fun c hc => hspares c (loses_either.mpr (.inl hc))
    replace ihr := @ihr sign fun c hc => hspares c (loses_either.mpr (.inr hc))
    rw [ρ.truth_either] at ht
    rw [bitwise_either, ρ.truth_either]
    cases sign with
    | true => exact Truth.either_eq_yes.mpr ((Truth.either_eq_yes.mp ht).imp ihl ihr)
    | false => exact Truth.either_eq_no.mpr ((Truth.either_eq_no.mp ht).imp ihl ihr)
  | parens h ih =>
    rw [ρ.truth_parens] at ht
    rw [bitwise_parens, ρ.truth_parens]
    exact ih (fun c hc => hspares c (loses_parens.mpr hc)) ht
  | negation h ih =>
    rw [ρ.truth_negation, Truth.negation_eq_ofSign] at ht
    rw [bitwise_negation, ρ.truth_negation, Truth.negation_eq_ofSign]
    exact ih (fun c hc => hspares c (loses_negation.mpr hc)) ht

end Spared

/-- Conditions that test each of their columns once, with these columns. -/
inductive TestsOnce : List Node → Node → Prop
  | test {column : Node} (h : column.Unchanged (Dialect.adapt .mssql))
    (positive b immediate : Bool) : TestsOnce [column] (test column positive b immediate)
  | both {cs ds : List Node} {l r : Node} (hl : TestsOnce cs l) (hr : TestsOnce ds r)
    (h : ∀ c ∈ cs, c ∉ ds) : TestsOnce (cs ++ ds) (l.both r)
  | either {cs ds : List Node} {l r : Node} (hl : TestsOnce cs l) (hr : TestsOnce ds r)
    (h : ∀ c ∈ cs, c ∉ ds) : TestsOnce (cs ++ ds) (l.either r)
  | parens {cs : List Node} {n : Node} (h : TestsOnce cs n) : TestsOnce cs n.parens
  | negation {cs : List Node} {n : Node} (h : TestsOnce cs n) : TestsOnce cs n.negation

theorem bitwise_test {column : Node} (h : column.Unchanged (Dialect.adapt .mssql))
    (positive b immediate : Bool) :
    bitwise (test column positive b immediate) = bitTest column positive b := by
  rw [test, bitwise_binary _ h (unchanged_value _ immediate), ← test, bitComparison_eq_bitTest]

/-- A condition can have a truth value where what becomes of it has another. -/
def Attains (n : Node) (t u : Truth) : Prop :=
  ∃ ρ : Bits, ρ.truth n = t ∧ ρ.truth (bitwise n) = u

namespace TestsOnce

variable {cs ds : List Node} {l n r : Node}

/-- Only what the tested columns hold matters. -/
theorem truth_congr (h : TestsOnce cs n) {ρ σ : Bits} (hρ : ∀ c ∈ cs, ρ.held c = σ.held c) :
    ρ.truth n = σ.truth n ∧ ρ.truth (bitwise n) = σ.truth (bitwise n) := by
  induction h with
  | @test column h positive b immediate =>
    have hcolumn := hρ column List.mem_cons_self
    rw [bitwise_test h, Condition.test, bitTest]
    simp only [Bits.truth_binary]
    rw [← Condition.test, ← bitTest]
    simp only [outcome_test, outcome_bitTest, hcolumn, and_self]
  | both hl hr h ihl ihr =>
    rw [bitwise_both]
    simp only [Bits.truth_both, ihl fun c hc => hρ c (List.mem_append_left _ hc),
      ihr fun c hc => hρ c (List.mem_append_right _ hc), and_self]
  | either hl hr h ihl ihr =>
    rw [bitwise_either]
    simp only [Bits.truth_either, ihl fun c hc => hρ c (List.mem_append_left _ hc),
      ihr fun c hc => hρ c (List.mem_append_right _ hc), and_self]
  | parens h ih =>
    rw [bitwise_parens]
    simpa only [Bits.truth_parens] using ih hρ
  | negation h ih =>
    rw [bitwise_negation]
    simp only [Bits.truth_negation, ih hρ, and_self]

open Classical in
/-- Rows for conditions on different columns are one row. -/
theorem exists_spliced (hl : TestsOnce cs l) (hr : TestsOnce ds r) (h : ∀ c ∈ cs, c ∉ ds)
    (ρ σ : Bits) : ∃ τ : Bits,
      (τ.truth l = ρ.truth l ∧ τ.truth (bitwise l) = ρ.truth (bitwise l)) ∧
        τ.truth r = σ.truth r ∧ τ.truth (bitwise r) = σ.truth (bitwise r) := by
  let τ : Bits := { ρ with held := fun c => if c ∈ cs then ρ.held c else σ.held c }
  have hρ : ∀ c ∈ cs, τ.held c = ρ.held c := fun c hc => if_pos hc
  have hσ : ∀ c ∈ ds, τ.held c = σ.held c := fun c hc => if_neg fun hcs => h c hcs hc
  exact ⟨τ, hl.truth_congr hρ, hr.truth_congr hσ⟩

theorem attains_both (hl : TestsOnce cs l) (hr : TestsOnce ds r) (h : ∀ c ∈ cs, c ∉ ds)
    {t u t' u' : Truth} (ht : Attains l t u) (ht' : Attains r t' u') :
    Attains (l.both r) (t.both t') (u.both u') := by
  obtain ⟨ρ, rfl, rfl⟩ := ht
  obtain ⟨σ, rfl, rfl⟩ := ht'
  obtain ⟨τ, ⟨htruth, hbits⟩, htruth', hbits'⟩ := exists_spliced hl hr h ρ σ
  exact ⟨τ, by rw [τ.truth_both, htruth, htruth'],
    by rw [bitwise_both, τ.truth_both, hbits, hbits']⟩

theorem attains_either (hl : TestsOnce cs l) (hr : TestsOnce ds r) (h : ∀ c ∈ cs, c ∉ ds)
    {t u t' u' : Truth} (ht : Attains l t u) (ht' : Attains r t' u') :
    Attains (l.either r) (t.either t') (u.either u') := by
  obtain ⟨ρ, rfl, rfl⟩ := ht
  obtain ⟨σ, rfl, rfl⟩ := ht'
  obtain ⟨τ, ⟨htruth, hbits⟩, htruth', hbits'⟩ := exists_spliced hl hr h ρ σ
  exact ⟨τ, by rw [τ.truth_either, htruth, htruth'],
    by rw [bitwise_either, τ.truth_either, hbits, hbits']⟩

theorem attains_parens {t u : Truth} (h : Attains n t u) : Attains n.parens t u := by
  obtain ⟨ρ, ht, hu⟩ := h
  exact ⟨ρ, by rwa [ρ.truth_parens], by rwa [bitwise_parens, ρ.truth_parens]⟩

theorem attains_negation {t u : Truth} (h : Attains n t u) :
    Attains n.negation t.negation u.negation := by
  obtain ⟨ρ, rfl, rfl⟩ := h
  exact ⟨ρ, ρ.truth_negation n, by rw [bitwise_negation, ρ.truth_negation]⟩

theorem attains_test {column : Node} (h : column.Unchanged (Dialect.adapt .mssql))
    (positive b immediate : Bool) (held : Option Bool) :
    Attains (Condition.test column positive b immediate)
      (.ofSign ((held == some b) == positive))
      (held.elim .unknown fun c => .ofSign ((c == b) == positive)) := by
  refine ⟨⟨fun _ => held, fun _ => .unknown⟩, ?_, ?_⟩
  · rw [Condition.test, Bits.truth_binary, ← Condition.test, outcome_test]
  · rw [bitwise_test h, bitTest, Bits.truth_binary, ← bitTest, outcome_bitTest]

/-- Both truth values are attained without nulls. -/
theorem attains_ofSign (h : TestsOnce cs n) (sign : Bool) :
    Attains n (.ofSign sign) (.ofSign sign) := by
  induction h generalizing sign with
  | test h positive b immediate =>
    have hheld := attains_test h positive b immediate (some (b == (positive == sign)))
    revert hheld
    cases b <;> cases positive <;> cases sign <;> exact id
  | both hl hr h ihl ihr =>
    have hboth := attains_both hl hr h (ihl sign) (ihr sign)
    revert hboth
    cases sign <;> exact id
  | either hl hr h ihl ihr =>
    have heither := attains_either hl hr h (ihl sign) (ihr sign)
    revert heither
    cases sign <;> exact id
  | parens h ih => exact attains_parens (ih sign)
  | negation h ih =>
    have hnegation := attains_negation (ih (!sign))
    revert hnegation
    cases sign <;> exact id

/-- A test that null meets loses a row where all else leaves the outcome to it. -/
theorem attains_unknown (h : TestsOnce cs n) {column : Node} {sign : Bool}
    (hloses : Loses column n sign) : Attains n (.ofSign sign) .unknown := by
  induction h generalizing sign with
  | test h positive b immediate =>
    have hheld := attains_test h positive b immediate none
    rw [Condition.test, loses_binary] at hloses
    revert hheld
    cases positive <;> cases hloses <;> exact id
  | both hl hr h ihl ihr =>
    obtain hloses | hloses := loses_both.mp hloses
    · have hboth := attains_both hl hr h (ihl hloses) (hr.attains_ofSign true)
      rwa [Truth.ofSign, Truth.both_yes, Truth.both_yes] at hboth
    · have hboth := attains_both hl hr h (hl.attains_ofSign true) (ihr hloses)
      rwa [Truth.ofSign, Truth.yes_both, Truth.yes_both] at hboth
  | either hl hr h ihl ihr =>
    obtain hloses | hloses := loses_either.mp hloses
    · have heither := attains_either hl hr h (ihl hloses) (hr.attains_ofSign false)
      rwa [Truth.ofSign, Truth.either_no, Truth.either_no] at heither
    · have heither := attains_either hl hr h (hl.attains_ofSign false) (ihr hloses)
      rwa [Truth.ofSign, Truth.no_either, Truth.no_either] at heither
  | parens h ih => exact attains_parens (ih (loses_parens.mp hloses))
  | negation h ih =>
    have hnegation := attains_negation (ih (loses_negation.mp hloses))
    revert hnegation
    cases sign <;> exact id

end TestsOnce

/-- A condition keeps its outcomes or loses them, it keeps the rows that have null in no column of a
test that null meets, and where each column is tested once it keeps all rows only if there is no
such test. -/
theorem selects_adapted {n : Node} (h : OnColumns n) (hw : n.wellFormed = true) :
    ∃ m, Dialect.apply .mssql n = .ok m ∧
      (∀ ρ : Bits, (ρ.truth n).Fades (ρ.truth m)) ∧
      (∀ ρ : Bits, ρ.Spares n true → (ρ.truth m = .yes ↔ ρ.truth n = .yes)) ∧
      ∀ cs, TestsOnce cs n →
        ((∀ ρ : Bits, ρ.truth m = .yes ↔ ρ.truth n = .yes) ↔ ¬ ∃ column, Loses column n true) := by
  have hspared : ∀ ρ : Bits, ρ.Spares n true →
      (ρ.truth (bitwise n) = .ofSign true ↔ ρ.truth n = .ofSign true) := by
    intro ρ hspares
    constructor
    · exact (fades_bitwise ρ h).eq_ofSign
    · exact truth_bitwise_of_spares ρ h hspares
  refine ⟨bitwise n, Dialect.apply_eq_rewrite _ hw, fun ρ => fades_bitwise ρ h, hspared, ?_⟩
  intro cs hcs
  constructor
  · rintro hselects ⟨column, hloses⟩
    obtain ⟨ρ, hyes, hunknown⟩ := hcs.attains_unknown hloses
    have hbits := (hselects ρ).mpr hyes
    rw [hunknown] at hbits
    cases hbits
  · intro hnone ρ
    exact hspared ρ fun column hloses => absurd ⟨column, hloses⟩ hnone

/-- Plain `is` and negated `is not` lose no row. -/
theorem selects_adapted_negated :
    let n : Node := (test (.column "active") true true true).both
      (test (.column "deleted") false false true).negation
    OnColumns n ∧ n.wellFormed = true ∧
      ∃ m, Dialect.apply .mssql n = .ok m ∧ ∀ ρ : Bits, ρ.truth m = .yes ↔ ρ.truth n = .yes := by
  intro n
  have hactive : (Node.column "active").Unchanged (Dialect.adapt .mssql) :=
    Node.unchanged_adapt _ (by decide)
  have hdeleted : (Node.column "deleted").Unchanged (Dialect.adapt .mssql) :=
    Node.unchanged_adapt _ (by decide)
  have hn : OnColumns n := .both (.binary _ hactive (unchanged_value _ _))
    (.negation (.binary _ hdeleted (unchanged_value _ _)))
  have honce : TestsOnce [.column "active", .column "deleted"] n :=
    .both (.test hactive _ _ _) (.negation (.test hdeleted _ _ _))
      (by simp [Node.column, Node.identifier])
  have hw : n.wellFormed = true := by decide
  obtain ⟨m, hm, -, -, hexact⟩ := selects_adapted hn hw
  refine ⟨hn, hw, m, hm, (hexact _ honce).mpr ?_⟩
  rintro ⟨column, hloses⟩
  rw [loses_both, loses_negation, test, test, loses_binary, loses_binary] at hloses
  obtain hloses | hloses := hloses <;> cases hloses

/-- Null is not false, but it is no bit either. -/
theorem not_selects_isNot_false :
    ¬ ∀ (n m : Node) (ρ : Bits), OnColumns n → Dialect.apply .mssql n = .ok m →
      (ρ.truth m = .yes ↔ ρ.truth n = .yes) := by
  intro h
  have hcolumn : (Node.column "deleted").Unchanged (Dialect.adapt .mssql) :=
    Node.unchanged_adapt _ (by decide)
  have hmet := (h (test (.column "deleted") false false true) _ ⟨fun _ => none, fun _ => .unknown⟩
    (.binary _ hcolumn (unchanged_value _ _)) rfl).mpr rfl
  cases hmet

end Condition

end SqlTree
