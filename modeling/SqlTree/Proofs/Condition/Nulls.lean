import SqlTree.Build.Index
import SqlTree.Build.Insert
import SqlTree.Build.Select
import SqlTree.Proofs.Condition.Calls
import SqlTree.Proofs.Value.Texts

/-!
# Comparisons with null

An equation with a plain null is a test with `is null`.  A call that joins a comparison to a clause
hands it the value either as it was given or as a literal (`Place`); where it hands over the value,
null is promoted and no equation with null comes into the statement.  The filter of an index hands
over a literal, which is no plain value any more, and so it equates with null
(`ClauseCall.joins_null`).
-/

namespace SqlTree

namespace Operator

/-- The operators of equations, and of equations denied. -/
def equates (op : Operator) : Bool := op.isEquality || op.isInequality

/-- The test with null that an equation is. -/
def nullTest (op : Operator) : Operator := if op.isEquality then .is else .isNot

/-- Whether a text is the operator, whatever its letter case and the blanks at its ends. -/
def IsSpelled (op : Operator) (input : String) : Prop :=
  Text.lowercase (Text.trim input) = op.symbol

variable {op : Operator} (hop : op.equates = true)
include hop

theorem eq_of_equates : op = .eq ∨ op = .doubleEq ∨ op = .ne ∨ op = .notEqual := by
  cases op <;> simp [equates, isEquality, isInequality] at hop ⊢

theorem isSpelled_between_blanks {before after : List Char}
    (hbefore : before.all Text.isBlank = true) (hafter : after.all Text.isBlank = true) :
    op.IsSpelled (.ofList (before ++ (op.symbol.toList ++ after))) := by
  have hword : op.symbol.toList.all (! Text.isBlank ·) = true ∧
      Text.lowercase op.symbol = op.symbol := by
    obtain rfl | rfl | rfl | rfl := eq_of_equates hop <;> decide
  obtain ⟨hunblank, hlower⟩ := hword
  rw [List.all_eq_true] at hbefore hafter
  rw [IsSpelled, Text.trim_between_blanks hbefore (by simpa using hunblank) hafter,
    String.ofList_toList, hlower]

theorem readBinary_of_isSpelled {input : String} (h : op.IsSpelled input) :
    readBinary input = .ok op := by
  rw [readBinary, lookup, h]
  obtain rfl | rfl | rfl | rfl := eq_of_equates hop <;> rfl

theorem against_null : op.against (.value .null) = op.nullTest := by
  obtain rfl | rfl | rfl | rfl := eq_of_equates hop <;> rfl

end Operator

theorem Operator.isTest_nullTest (op : Operator) : op.nullTest.isTest = true := by
  cases op <;> rfl

theorem Operator.symbol_nullTest (op : Operator) :
    op.nullTest.symbol = if op.isEquality then "is" else "is not" := by
  cases op <;> rfl

theorem Operator.equates_against_null (op : Operator) :
    (op.against (.value .null)).equates = false := by
  cases op <;> rfl

/-- Whether a shape is an equation with null. -/
def Shape.equatesNull : Shape Node → Bool
  | .binaryOperation _ ⟨.operator op⟩ ⟨.value .null _⟩ => op.equates
  | _ => false

namespace Node

/-- Trees in which nothing equates with null. -/
def NeverEquatesNull : Node → Prop := Every fun s => s.equatesNull = false

theorem never_mk {s : Shape Node} (hs : s.equatesNull = false) :
    NeverEquatesNull ⟨s⟩ ↔ ∀ c ∈ s.children, c.NeverEquatesNull :=
  every_mk.trans (and_iff_right hs)

/-- A clause of a statement and the rest of it. -/
theorem never_iff_of_children {s t : Shape Node} (hs : s.equatesNull = false)
    (ht : t.equatesNull = false) {clause : Option Node}
    (h : ∀ x, x ∈ s.children ↔ x ∈ t.children ∨ x ∈ clause) :
    NeverEquatesNull ⟨s⟩ ↔ NeverEquatesNull ⟨t⟩ ∧ ∀ w ∈ clause, w.NeverEquatesNull := by
  rw [never_mk hs, never_mk ht, ← forall_and]
  refine forall_congr' fun x => ?_
  rw [h, or_imp]

theorem never_both (l r : Node) :
    (both l r).NeverEquatesNull ↔ l.NeverEquatesNull ∧ r.NeverEquatesNull := by
  rw [both, never_mk rfl]
  simp [Shape.children, Shape.fields, Field.toList]

theorem never_value (v : Value) (immediate : Bool) : NeverEquatesNull ⟨.value v immediate⟩ :=
  (never_mk rfl).mpr (List.forall_mem_nil _)

theorem equatesNull_value (l : Node) (op : Operator) (v : Value) (immediate : Bool) :
    (Shape.binaryOperation l ⟨.operator op⟩ ⟨.value v immediate⟩).equatesNull = true ↔
      op.equates = true ∧ v = .null := by
  cases v <;> simp [Shape.equatesNull]

theorem never_binary (l : Node) (op : Operator) (v : Value) (immediate : Bool) :
    (binary l op ⟨.value v immediate⟩).NeverEquatesNull ↔
      l.NeverEquatesNull ∧ ¬ (op.equates = true ∧ v = .null) := by
  have hop : NeverEquatesNull ⟨.operator op⟩ := (never_mk rfl).mpr (List.forall_mem_nil _)
  rw [binary, NeverEquatesNull, every_mk, ← Bool.not_eq_true, equatesNull_value, and_comm]
  refine and_congr_left' ?_
  have hchildren : (Shape.binaryOperation l ⟨.operator op⟩ ⟨.value v immediate⟩).children =
    [l, ⟨.operator op⟩, ⟨.value v immediate⟩] := rfl
  rw [hchildren, List.forall_mem_cons]
  refine and_iff_left ?_
  exact List.forall_mem_cons.mpr ⟨hop, List.forall_mem_singleton.mpr (never_value v immediate)⟩

theorem OfNames.never {n : Node} (h : n.OfNames) : n.NeverEquatesNull :=
  h.imp fun s hs => by
    cases s <;> first | rfl | cases hs.2

theorem comparison_value (l : Node) (op : Operator) (v : Value) :
    ∃ immediate, l.comparison op (.value v) =
      .binary l (op.against (.value v)) ⟨.value v immediate⟩ := by
  cases h : (Operand.value v).isTested && (op.against (.value v)).isTest with
  | false => exact ⟨false, by simp only [comparison, h]; rfl⟩
  | true => exact ⟨true, by simp only [comparison, h]; rfl⟩

/-- A comparison with a plain value equates nothing with null. -/
theorem never_comparison (l : Node) (op : Operator) (v : Value) :
    (l.comparison op (.value v)).NeverEquatesNull ↔ l.NeverEquatesNull := by
  have hnull : ¬ ((op.against (.value v)).equates = true ∧ v = .null) := by
    rintro ⟨hop, rfl⟩
    rw [op.equates_against_null] at hop
    cases hop
  obtain ⟨immediate, h⟩ := comparison_value l op v
  rw [h, never_binary]
  exact and_iff_left hnull

theorem comparison_null {op : Operator} (hop : op.equates = true) (l : Node) :
    l.comparison op (.value .null) = .binary l op.nullTest (.literal .null) := by
  rw [comparison, Operator.against_null hop, op.isTest_nullTest]
  rfl

theorem not_isTest_null (l : Node) (op : Operator) : ¬ IsTest (.binary l op (.literal .null)) := by
  intro h
  obtain ⟨-, b, i, h⟩ := isTest_binaryOperation.mp h
  cases h

/-- A test with null is written out in every dialect. -/
theorem piecesIn_nullTest (n : Node) (d : Dialect) (op : Operator) (parent : Option Kind) :
    (rewrite d.adapt (.binary n op (.literal .null))).piecesIn d parent =
      (n.rewrite d.adapt).piecesIn d (some .binaryOperation) ++
        [.text " ", .text op.symbol, .text " ", .literal .null] := by
  have hop : rewrite d.adapt ⟨.operator op⟩ = ⟨.operator op⟩ :=
    d.rewrite_adapt_mk (s := .operator op) (ne_of_beq_false rfl) (ne_of_beq_false rfl)
  have hnull : rewrite d.adapt (.literal .null) = .literal .null :=
    d.rewrite_adapt_mk (s := .value .null true) (ne_of_beq_false rfl) (ne_of_beq_false rfl)
  have hrewrite : rewrite d.adapt (.binary n op (.literal .null)) =
      .binary (n.rewrite d.adapt) op (.literal .null) := by
    rw [binary, rewrite_mk, Shape.map_eq_each, Shape.each, hop, hnull]
    exact d.adapt_of_not_isTest (ne_of_beq_false rfl) (not_isTest_null (n.rewrite d.adapt) op)
  rw [hrewrite, binary, piecesIn_mk, Shape.map_eq_each, Shape.each, Layout.pieces,
    List.append_assoc, List.append_assoc, List.append_assoc]
  rfl

end Node

/-- A call that compares a term with a plain value. -/
structure Comparison where
  left : Term
  operator : String
  value : Value

namespace Comparison

/-- Whether the call asks for an equation with null. -/
def EquatesNull (k : Comparison) : Prop :=
  (∃ op, Operator.readBinary k.operator = .ok op ∧ op.equates = true) ∧ k.value = .null

/-- What a name is read as has no equation; a tree may have one. -/
def LeftNever (k : Comparison) : Prop := ∀ n, k.left = .node n → n.NeverEquatesNull

theorem LeftNever.never_reference {k : Comparison} (h : k.LeftNever) {n : Node}
    (hn : k.left.reference = .ok n) : n.NeverEquatesNull := by
  cases hl : k.left with
  | text s =>
    rw [hl] at hn
    exact (Read.ofNames_reference hn).never
  | node m =>
    rw [hl] at hn
    cases hn
    exact h n hl

end Comparison

/-- Where a comparison is joined to a clause: the call, what it hands the value over as, and the
statement that has the clause. -/
structure Place (σ : Type) where
  compare : σ → Term → String → Operand → Except Error σ
  given : Operand → Operand
  clause : σ → Option Node
  setClause : σ → Option Node → σ
  wrap : Node → Node
  statement : σ → Node

namespace Place

variable {σ : Type} (P : Place σ)

def condition (s : σ) : Option Node := (P.clause s).bind Node.condition?

def add (s : σ) (c : Node) : σ :=
  P.setClause s (some (P.wrap (.extended .both (P.clause s) c)))

def take (s : σ) (k : Comparison) : Except Error σ :=
  P.compare s k.left k.operator (.value k.value)

structure Lawful : Prop where
  compare_eq : ∀ s l operator r,
    P.compare s l operator r = l.compare operator (P.given r) >>= fun c => .ok (P.add s c)
  clause_setClause : ∀ s c, P.clause (P.setClause s c) = c
  setClause_clause : ∀ s, P.setClause s (P.clause s) = s
  condition?_wrap : ∀ c, (P.wrap c).condition? = some c
  never_wrap : ∀ c, (P.wrap c).NeverEquatesNull ↔ c.NeverEquatesNull
  never_statement : ∀ s c, (P.statement (P.setClause s c)).NeverEquatesNull ↔
    (P.statement (P.setClause s none)).NeverEquatesNull ∧ ∀ w ∈ c, w.NeverEquatesNull

/-- An equation with a plain null is joined as a test of the two. -/
def Joins (test : Operator → Operator) : Prop :=
  ∀ (s : σ) {l : Term} {n : Node} {op : Operator} {operator : String},
    l.reference = .ok n → op.equates = true → op.IsSpelled operator →
      ∃ s', P.compare s l operator (.value .null) = .ok s' ∧ P.condition s' =
        Step.condition (P.condition s) (.both (.binary n (test op) (.literal .null)))

/-- Calls leave a statement free of equations with null if and only if each of them meets `p`. -/
def Spares (p : Comparison → Prop) : Prop :=
  ∀ {s s' : σ} {ks : List Comparison}, (∀ w, P.clause s = some w → ∃ c, w = P.wrap c) →
    (∀ k ∈ ks, k.LeftNever) → ks.foldlM P.take s = .ok s' →
      ((P.statement s').NeverEquatesNull ↔
        (P.statement s).NeverEquatesNull ∧ ∀ k ∈ ks, p k)

variable {P} (hP : P.Lawful)
include hP

theorem Lawful.never_add {s : σ} (hs : ∀ w, P.clause s = some w → ∃ c, w = P.wrap c) (c : Node) :
    (P.statement (P.add s c)).NeverEquatesNull ↔
      (P.statement s).NeverEquatesNull ∧ c.NeverEquatesNull := by
  have hbefore := hP.never_statement s (P.clause s)
  rw [hP.setClause_clause] at hbefore
  rw [add, hP.never_statement, hbefore, and_assoc]
  -- What is left of the statement without the clause is the same before and after.
  refine and_congr_right' ?_
  cases hclause : P.clause s with
  | none => simp [Node.extended, hP.never_wrap]
  | some w =>
    obtain ⟨b, rfl⟩ := hs w hclause
    simp [Node.extended, hP.condition?_wrap, hP.never_wrap, Node.never_both]

theorem Lawful.spares {p : Comparison → Prop}
    (hp : ∀ k c, k.LeftNever → k.left.compare k.operator (P.given (.value k.value)) = .ok c →
      (c.NeverEquatesNull ↔ p k)) : P.Spares p := by
  intro s s' ks hs hks h
  induction ks generalizing s with
  | nil =>
    cases h
    exact (and_iff_left (List.forall_mem_nil _)).symm
  | cons k ks ih =>
    rw [List.foldlM_cons] at h
    obtain ⟨s₁, hk, h⟩ := exists_of_bind_eq_ok h
    rw [take, hP.compare_eq] at hk
    obtain ⟨c, hc, hk⟩ := exists_of_bind_eq_ok hk
    cases hk
    obtain ⟨hleft, hks⟩ := List.forall_mem_cons.mp hks
    -- The clause is again one of this place, which is all that the next call relies on.
    have hadded : ∀ w, P.clause (P.add s c) = some w → ∃ c, w = P.wrap c := by
      intro w hw
      rw [add, hP.clause_setClause] at hw
      cases hw
      exact ⟨_, rfl⟩
    rw [ih hadded hks h, hP.never_add hs, hp k c hleft hc, List.forall_mem_cons, and_assoc]

theorem Lawful.joins {test : Operator → Operator}
    (htest : ∀ (n : Node) {op : Operator}, op.equates = true →
      n.comparison op (P.given (.value .null)) = .binary n (test op) (.literal .null)) :
    P.Joins test := by
  intro s l n op operator hl hop hspelled
  have hc : l.compare operator (P.given (.value .null)) =
      .ok (.binary n (test op) (.literal .null)) := by
    rw [Term.compare_eq_ok hl (Operator.readBinary_of_isSpelled hop hspelled), htest n hop]
  refine ⟨P.add s (.binary n (test op) (.literal .null)), ?_, ?_⟩
  · rw [hP.compare_eq, hc]
    rfl
  · rw [condition, add, hP.clause_setClause, Node.extended_eq_elim]
    exact hP.condition?_wrap _

/-- A place that hands the value over as it was given promotes null. -/
theorem Lawful.joins_nullTest (hgiven : P.given = id) : P.Joins Operator.nullTest :=
  hP.joins fun n _ hop => hgiven ▸ n.comparison_null hop

/-- Where null is promoted, no call brings an equation with null into the statement. -/
theorem Lawful.spares_all (hgiven : P.given = id) {p : Comparison → Prop} (hp : ∀ k, p k) :
    P.Spares p :=
  hP.spares fun k c hleft hc => by
    rw [hgiven] at hc
    obtain ⟨n, op, hn, -, rfl⟩ := Term.eq_comparison_of_compare hc
    have hnever : (n.comparison op (.value k.value)).NeverEquatesNull :=
      (n.never_comparison op k.value).mpr (hleft.never_reference hn)
    exact iff_of_true hnever (hp k)

end Place

/-- The filter of a statement. -/
def wherePlace (σ : Type) [Filtering σ] : Place σ where
  compare := Filtered.whereCompare
  given := id
  clause := Filtered.filter
  setClause := Filtered.setFilter
  wrap c := ⟨.whereClause c⟩
  statement := Filtering.statement

/-- The filter of the groups of a select. -/
def havingPlace : Place (Select Node) where
  compare := Select.havingCompare
  given := id
  clause p := p.having
  setClause p c := { p with having := c }
  wrap c := ⟨.having c⟩
  statement := Select.node

/-- The condition of a join. -/
def onPlace (type : JoinType) (table : Node) : Place JoinCondition where
  compare := JoinCondition.on
  given := id
  clause j := j.clause
  setClause _ c := ⟨c⟩
  wrap c := ⟨.onClause c⟩
  statement j := ⟨.join type table j.clause⟩

/-- The filter of the index that an insert conflicts in. -/
def conflictIndexPlace : Place (OnConflict Node) where
  compare := OnConflict.indexWhereCompare
  given := id
  clause p := p.indexWhere
  setClause p c := { p with indexWhere := c }
  wrap c := ⟨.whereClause c⟩
  statement p := ⟨.onConflict p⟩

/-- The filter of the update in place of an insert. -/
def conflictUpdatePlace : Place (OnConflict Node) where
  compare := OnConflict.updateWhereCompare
  given := id
  clause p := p.updateWhere
  setClause p c := { p with updateWhere := c }
  wrap c := ⟨.whereClause c⟩
  statement p := ⟨.onConflict p⟩

/-- The filter of an index, which hands over a literal. -/
def indexPlace : Place (CreateIndex Node) where
  compare := CreateIndex.whereCompare
  given r := .node r.inline
  clause p := p.whereClause
  setClause p c := { p with whereClause := c }
  wrap c := ⟨.whereClause c⟩
  statement := CreateIndex.node

theorem Node.never_whereClause (c : Node) :
    NeverEquatesNull ⟨.whereClause c⟩ ↔ c.NeverEquatesNull :=
  (never_mk rfl).trans List.forall_mem_singleton

theorem lawful_wherePlace_select : (wherePlace (Select Node)).Lawful where
  compare_eq _ _ _ _ := rfl
  clause_setClause _ _ := rfl
  setClause_clause _ := rfl
  condition?_wrap _ := rfl
  never_wrap := Node.never_whereClause
  never_statement p c := by
    refine Node.never_iff_of_children (s := .selectQuery { p with whereClause := c })
      (t := .selectQuery { p with whereClause := none }) rfl rfl fun x => ?_
    simp [Shape.children, Shape.fields, Select.fields, Field.toList]
    grind

theorem lawful_wherePlace_update : (wherePlace (Update Node)).Lawful where
  compare_eq _ _ _ _ := rfl
  clause_setClause _ _ := rfl
  setClause_clause _ := rfl
  condition?_wrap _ := rfl
  never_wrap := Node.never_whereClause
  never_statement p c := by
    refine Node.never_iff_of_children (s := .updateQuery { p with whereClause := c })
      (t := .updateQuery { p with whereClause := none }) rfl rfl fun x => ?_
    simp [Shape.children, Shape.fields, Update.fields, Field.toList]
    grind

theorem lawful_wherePlace_delete : (wherePlace (Delete Node)).Lawful where
  compare_eq _ _ _ _ := rfl
  clause_setClause _ _ := rfl
  setClause_clause _ := rfl
  condition?_wrap _ := rfl
  never_wrap := Node.never_whereClause
  never_statement p c := by
    refine Node.never_iff_of_children (s := .deleteQuery { p with whereClause := c })
      (t := .deleteQuery { p with whereClause := none }) rfl rfl fun x => ?_
    simp [Shape.children, Shape.fields, Delete.fields, Field.toList]
    grind

theorem lawful_havingPlace : havingPlace.Lawful where
  compare_eq _ _ _ _ := rfl
  clause_setClause _ _ := rfl
  setClause_clause _ := rfl
  condition?_wrap _ := rfl
  never_wrap c := (Node.never_mk (s := .having c) rfl).trans List.forall_mem_singleton
  never_statement p c := by
    refine Node.never_iff_of_children (s := .selectQuery { p with having := c })
      (t := .selectQuery { p with having := none }) rfl rfl fun x => ?_
    simp [Shape.children, Shape.fields, Select.fields, Field.toList]
    grind

theorem lawful_onPlace (type : JoinType) (table : Node) : (onPlace type table).Lawful where
  compare_eq _ _ _ _ := rfl
  clause_setClause _ _ := rfl
  setClause_clause _ := rfl
  condition?_wrap _ := rfl
  never_wrap c := (Node.never_mk (s := .onClause c) rfl).trans List.forall_mem_singleton
  never_statement j c := by
    refine Node.never_iff_of_children (s := .join type table c) (t := .join type table none)
      rfl rfl fun x => ?_
    simp [Shape.children, Shape.fields, Field.toList, or_assoc]

theorem lawful_conflictIndexPlace : conflictIndexPlace.Lawful where
  compare_eq _ _ _ _ := rfl
  clause_setClause _ _ := rfl
  setClause_clause _ := rfl
  condition?_wrap _ := rfl
  never_wrap := Node.never_whereClause
  never_statement p c := by
    refine Node.never_iff_of_children (s := .onConflict { p with indexWhere := c })
      (t := .onConflict { p with indexWhere := none }) rfl rfl fun x => ?_
    simp [Shape.children, Shape.fields, OnConflict.fields, Field.toList]
    grind

theorem lawful_conflictUpdatePlace : conflictUpdatePlace.Lawful where
  compare_eq _ _ _ _ := rfl
  clause_setClause _ _ := rfl
  setClause_clause _ := rfl
  condition?_wrap _ := rfl
  never_wrap := Node.never_whereClause
  never_statement p c := by
    refine Node.never_iff_of_children (s := .onConflict { p with updateWhere := c })
      (t := .onConflict { p with updateWhere := none }) rfl rfl fun x => ?_
    simp [Shape.children, Shape.fields, OnConflict.fields, Field.toList]
    grind

theorem lawful_indexPlace : indexPlace.Lawful where
  compare_eq _ _ _ _ := rfl
  clause_setClause _ _ := rfl
  setClause_clause _ := rfl
  condition?_wrap _ := rfl
  never_wrap := Node.never_whereClause
  never_statement p c := by
    refine Node.never_iff_of_children (s := .createIndex { p with whereClause := c })
      (t := .createIndex { p with whereClause := none }) rfl rfl fun x => ?_
    simp [Shape.children, Shape.fields, CreateIndex.fields, Field.toList]
    grind

/-- The filter of an index keeps the operator, so it has the equations with null that the calls ask
for. -/
theorem spares_indexPlace {p : Comparison → Prop} (hp : ∀ k, p k ↔ ¬ k.EquatesNull) :
    indexPlace.Spares p :=
  lawful_indexPlace.spares fun k c hleft hc => by
    obtain ⟨n, op, hn, hop, rfl⟩ := Term.eq_comparison_of_compare hc
    have hasks : k.EquatesNull ↔ op.equates = true ∧ k.value = .null := by
      simp [Comparison.EquatesNull, hop]
    rw [hp, hasks]
    exact (n.never_binary op k.value true).trans (and_iff_right (hleft.never_reference hn))

/-- The calls that compare with a value and join the comparison to a clause. -/
inductive ClauseCall where
  | selectWhere
  | updateWhere
  | deleteWhere
  | having
  | on (type : JoinType) (table : Node)
  | conflictIndexWhere
  | conflictUpdateWhere
  | indexWhere

namespace ClauseCall

/-- What the clause is a part of. -/
def Whole : ClauseCall → Type
  | selectWhere => Select Node
  | updateWhere => Update Node
  | deleteWhere => Delete Node
  | having => Select Node
  | on _ _ => JoinCondition
  | conflictIndexWhere => OnConflict Node
  | conflictUpdateWhere => OnConflict Node
  | indexWhere => CreateIndex Node

def place : (e : ClauseCall) → Place e.Whole
  | selectWhere => wherePlace (Select Node)
  | updateWhere => wherePlace (Update Node)
  | deleteWhere => wherePlace (Delete Node)
  | having => havingPlace
  | on type table => onPlace type table
  | conflictIndexWhere => conflictIndexPlace
  | conflictUpdateWhere => conflictUpdatePlace
  | indexWhere => indexPlace

/-- Whether the value comes to the comparison as a literal. -/
def isLiteral : ClauseCall → Bool
  | indexWhere => true
  | _ => false

theorem lawful_place (e : ClauseCall) : e.place.Lawful := by
  cases e with
  | selectWhere => exact lawful_wherePlace_select
  | updateWhere => exact lawful_wherePlace_update
  | deleteWhere => exact lawful_wherePlace_delete
  | having => exact lawful_havingPlace
  | on type table => exact lawful_onPlace type table
  | conflictIndexWhere => exact lawful_conflictIndexPlace
  | conflictUpdateWhere => exact lawful_conflictUpdatePlace
  | indexWhere => exact lawful_indexPlace

theorem given_place {e : ClauseCall} (he : e.isLiteral = false) : e.place.given = id := by
  cases e with
  | indexWhere => cases he
  | _ => rfl

/-- A call promotes a plain null, that is, an equation with it is joined as a test, unless it makes
the value a literal before it compares; then the equation is joined as it is.  So a statement has an
equation with null if and only if the filter of an index was given one. -/
theorem joins_null (e : ClauseCall) :
    (e.place.Joins (if e.isLiteral then id else Operator.nullTest) ∧
      e.place.Spares fun k => ¬ (e.isLiteral = true ∧ k.EquatesNull)) ∧
    ((∀ (l : Term) (n : Node) (op : Operator) (operator : String), l.reference = .ok n →
        op.equates = true → op.IsSpelled operator →
          l.compare operator (.value .null) = .ok (.binary n op.nullTest (.literal .null))) ∧
      ∀ (k : Comparison) (c : Node), k.LeftNever →
        k.left.compare k.operator (.value k.value) = .ok c → c.NeverEquatesNull) ∧
    ∀ (d : Dialect) (n : Node) (op : Operator) (parent : Option Kind),
      (Node.rewrite d.adapt (.binary n op.nullTest (.literal .null))).piecesIn d parent =
          (n.rewrite d.adapt).piecesIn d (some .binaryOperation) ++
            [.text " ", .text (if op.isEquality then "is" else "is not"), .text " ",
              .literal .null] ∧
        d.literal .null = "null" := by
  refine ⟨?_, ⟨?_, ?_⟩, ?_⟩
  · cases he : e.isLiteral with
    | false =>
      exact ⟨e.lawful_place.joins_nullTest (given_place he),
        e.lawful_place.spares_all (given_place he) fun k => by simp⟩
    | true =>
      cases e with
      | indexWhere =>
        exact ⟨lawful_indexPlace.joins fun _ _ _ => rfl, spares_indexPlace fun k => by simp⟩
      | _ => cases he
  · intro l n op operator hl hop hspelled
    rw [Term.compare_eq_ok hl (Operator.readBinary_of_isSpelled hop hspelled),
      n.comparison_null hop]
  · intro k c hleft hc
    obtain ⟨n, op, hn, -, rfl⟩ := Term.eq_comparison_of_compare hc
    exact (n.never_comparison op k.value).mpr (hleft.never_reference hn)
  · intro d n op parent
    refine ⟨?_, by cases d <;> rfl⟩
    rw [n.piecesIn_nullTest, op.symbol_nullTest]

/-- A select whose filter asks for rows without an `a`, and a join that asks for rows with one. -/
theorem joins_null_select :
    (∃ p, Filtered.whereCompare ({} : Select Node) (.text "a") " = " (.value .null) = .ok p ∧
      (wherePlace (Select Node)).condition p =
        some (.binary (.column "a") .is (.literal .null))) ∧
    ∃ j, JoinCondition.on {} (.text "a") "\t<>\n" (.value .null) = .ok j ∧
      (onPlace .inner (.table none "t")).condition j =
        some (.binary (.column "a") .isNot (.literal .null)) := by
  have hname : Term.reference (.text "a") = .ok (.column "a") := rfl
  constructor
  · have hspelled : Operator.eq.IsSpelled " = " :=
      @Operator.isSpelled_between_blanks .eq rfl [' '] [' '] rfl rfl
    exact (joins_null selectWhere).1.1 {} hname rfl hspelled
  · have hspelled : Operator.notEqual.IsSpelled "\t<>\n" :=
      @Operator.isSpelled_between_blanks .notEqual rfl ['\t'] ['\n'] rfl rfl
    exact (joins_null (on .inner (.table none "t"))).1.1 {} hname rfl hspelled

/-- An index of the rows without an `a`: the text equates with null, which no row meets. -/
theorem not_joins_nullTest :
    (∃ p, CreateIndex.whereCompare { name := .identifier "i" } (.text "a") "=" (.value .null) =
        .ok p ∧
      p.node.compile .postgres = .ok ⟨p.node, "create index \"i\" where \"a\" = null", []⟩) ∧
    ¬ ∀ e : ClauseCall, e.place.Joins Operator.nullTest := by
  refine ⟨⟨_, rfl, rfl⟩, fun h => ?_⟩
  have hname : Term.reference (.text "a") = .ok (.column "a") := rfl
  have hspelled : Operator.eq.IsSpelled "=" :=
    @Operator.isSpelled_between_blanks .eq rfl [] [] rfl rfl
  obtain ⟨p, hp, hcondition⟩ := h indexWhere { name := .identifier "i" } hname rfl hspelled
  cases hp
  cases hcondition

end ClauseCall

end SqlTree
