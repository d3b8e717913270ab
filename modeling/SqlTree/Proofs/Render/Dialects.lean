import SqlTree.Proofs.Pass.Adapting
import SqlTree.Proofs.Render.Congruence
import Mathlib.Algebra.Order.Group.Multiset
import Mathlib.Tactic.Abel

/-!
# Parameters in every dialect

Adapting a tree moves its parameters and loses none of them, but for the truth values of tests:
where these become comparisons with a bit, a bound truth value is written out.  So the dialects bind
the same values exactly if no test binds its truth value (`Node.compile_parameters`).
-/

namespace SqlTree

namespace Piece

@[simp] theorem parameters_append (ps qs : List Piece) :
    parameters (ps ++ qs) = parameters ps ++ parameters qs := by
  induction ps with
  | nil => rfl
  | cons p ps ih =>
    cases p with
    | parameter v => exact congrArg (v :: ·) ih
    | _ => exact ih

/-- The parameters of pieces, whatever their order. -/
def bound (ps : List Piece) : Multiset Value := parameters ps

@[simp] theorem bound_nil : bound [] = 0 := rfl

@[simp] theorem bound_append (ps qs : List Piece) : bound (ps ++ qs) = bound ps + bound qs := by
  rw [bound, parameters_append, ← Multiset.coe_add]
  rfl

@[simp] theorem bound_text (s : String) (ps : List Piece) : bound (.text s :: ps) = bound ps := rfl

@[simp] theorem bound_sql (s : String) : bound (Layout.sql s) = 0 := rfl

@[simp] theorem bound_sqlIf (b : Bool) (s : String) : bound (Layout.sqlIf b s) = 0 := by
  cases b <;> rfl

@[simp] theorem bound_enclosed (k : Kind) (parent : Option Kind) (ps : List Piece) :
    bound (Layout.enclosed k parent ps) = bound ps := by
  unfold Layout.enclosed
  split <;> simp

/-- Words bind nothing, in whatever dialect they are. -/
theorem bound_congruence (d e : Dialect) :
    Layout.Congruence d e fun ps qs => bound ps = bound qs where
  nil := rfl
  append h h' := by rw [bound_append, bound_append, h, h']
  text _ := rfl
  verbatim _ := rfl
  defaultValue := rfl
  autoIncrement := rfl
  rows := by rw [bound_sqlIf, bound_sqlIf]
  returning := by split <;> split <;> rfl
  insertVerb b c := by cases d <;> cases e <;> cases b <;> cases c <;> rfl
  ignoresAtEnd b c s := by rw [bound_sqlIf, bound_sqlIf]

/-- The parent decides about parentheses only. -/
theorem bound_pieces_parent (d : Dialect) (parent : Option Kind) (s : Shape Layout.Part) :
    bound (Layout.pieces d parent s) = bound (Layout.pieces d none s) := by
  cases s with
  | selectQuery p => simp only [Layout.pieces, bound_enclosed]
  | insertQuery p => simp only [Layout.pieces, bound_enclosed]
  | updateQuery p => simp only [Layout.pieces, bound_enclosed]
  | deleteQuery p => simp only [Layout.pieces, bound_enclosed]
  | mergeQuery p => simp only [Layout.pieces, bound_enclosed]
  | valueList items => cases items <;> rfl
  | _ => rfl

/-- The parameters of a clause, if it is there. -/
def boundOf : Option Layout.Part → Multiset Value
  | some p => bound p.2
  | none => 0

@[simp] theorem bound_clause (p : Option Layout.Part) : bound (Layout.clause p) = boundOf p := by
  cases p <;> rfl

/-- The clauses that cut a select to a window of its rows may stand anywhere. -/
theorem bound_select (p : Select Layout.Part) :
    bound (Layout.select p) =
      bound (Layout.select { p with top := none, limit := none, fetch := none, orderBy := none }) +
        (boundOf p.top + boundOf p.limit + boundOf p.fetch + boundOf p.orderBy) := by
  simp only [Layout.select, bound_append, bound_clause, boundOf]
  abel

end Piece

namespace Node

theorem bound_piecesIn_parent (d : Dialect) (n : Node) (parent : Option Kind) :
    Piece.bound (n.piecesIn d parent) = Piece.bound (n.pieces d) := by
  obtain ⟨s⟩ := n
  rw [pieces, piecesIn_mk, piecesIn_mk, Piece.bound_pieces_parent]

section Window

variable (d : Dialect) (rows : Node) (parent : Option Kind)

theorem bound_limit :
    Piece.bound (piecesIn d ⟨.limit rows⟩ parent) = Piece.bound (rows.pieces d) := by
  rw [piecesIn_mk, Shape.map_eq_each]
  simp only [Shape.each, Layout.pieces, Piece.bound_append, Piece.bound_sql, zero_add,
    bound_piecesIn_parent]

theorem bound_fetch (m : FetchModifier) :
    Piece.bound (piecesIn d ⟨.fetch rows m⟩ parent) = Piece.bound (rows.pieces d) := by
  rw [piecesIn_mk, Shape.map_eq_each]
  simp only [Shape.each, Layout.pieces, Piece.bound_append, Piece.bound_sql, zero_add, add_zero,
    bound_piecesIn_parent]

theorem bound_top :
    Piece.bound (piecesIn d ⟨.top rows none⟩ parent) = Piece.bound (rows.pieces d) := by
  rw [piecesIn_mk, Shape.map_eq_each]
  simp only [Shape.each, Layout.pieces, Piece.bound_append, Piece.bound_sql, Piece.bound_nil,
    zero_add, add_zero, bound_piecesIn_parent]

theorem bound_anyOrder : Piece.bound (piecesIn d Select.anyOrder parent) = 0 := rfl

end Window

end Node

namespace Select

variable (d : Dialect)

/-- What a select binds, clause by clause. -/
def bound (p : Select Node) : Multiset Value :=
  Piece.bound (Layout.select (p.each fun c => (c, c.piecesIn d (some .selectQuery))))

theorem bound_limitAsFetch (p : Select Node) : p.limitAsFetch.bound d = p.bound d := by
  unfold limitAsFetch
  split
  · rename_i rows hrows hfetch
    have hlimit := limit_of_limitRows? hrows
    rw [bound, bound, Piece.bound_select, Piece.bound_select (p.each _)]
    simp only [each, hlimit, hfetch, Option.map_some, Option.map_none, Piece.boundOf,
      Node.bound_limit, Node.bound_fetch, add_zero]
  · rfl

theorem bound_limitAsTop (p : Select Node) : p.limitAsTop.bound d = p.bound d := by
  unfold limitAsTop
  split
  · rename_i rows hrows htop
    have hlimit := limit_of_limitRows? hrows
    rw [bound, bound, Piece.bound_select, Piece.bound_select (p.each _)]
    simp only [each, hlimit, htop, Option.map_some, Option.map_none, Piece.boundOf,
      Node.bound_limit, Node.bound_top, zero_add, add_zero]
  · rfl

theorem bound_ordered (p : Select Node) : p.ordered.bound d = p.bound d := by
  unfold ordered
  split
  · rename_i horder
    have horder := Option.isNone_iff_eq_none.mp horder
    rw [bound, bound, Piece.bound_select, Piece.bound_select (p.each _)]
    simp only [each, horder, Option.map_some, Option.map_none, Piece.boundOf,
      Node.bound_anyOrder]
  · rfl

/-- A limit is moved with its parameters. -/
theorem bound_paginate (style : Pagination) (p : Select Node) :
    (p.paginate style).bound d = p.bound d := by
  cases style with
  | limitOffset => rfl
  | fetchNext => exact bound_limitAsFetch d p
  | topOrFetch =>
    show Select.bound d (if p.offset.isNone then p.limitAsTop else p.limitAsFetch.ordered) = _
    by_cases h : p.offset.isNone = true
    · rw [if_pos h, bound_limitAsTop]
    · rw [if_neg h, bound_ordered, bound_limitAsFetch]

end Select

namespace Node

/-- A test with its truth value written out. -/
def testWritten (n : Node) : Node :=
  match n with
  | ⟨.binaryOperation l ⟨.operator o⟩ ⟨.value (.bool b) _⟩⟩ =>
    match bitOperator? o with
    | some _ => ⟨.binaryOperation l ⟨.operator o⟩ ⟨.value (.bool b) true⟩⟩
    | none => n
  | _ => n

theorem testWritten_eq_self {n : Node} (h : ¬ n.IsTest) : n.testWritten = n := by
  unfold testWritten
  split
  · split
    · rename_i ho
      exact absurd (.mk _ ho _ _) h
    · rfl
  · rfl

theorem testWritten_test (l : Node) {o o' : Operator} (h : bitOperator? o = some o')
    (b immediate : Bool) :
    testWritten ⟨.binaryOperation l ⟨.operator o⟩ ⟨.value (.bool b) immediate⟩⟩ =
      ⟨.binaryOperation l ⟨.operator o⟩ ⟨.value (.bool b) true⟩⟩ := by
  simp only [testWritten, h]

theorem kind_testWritten (n : Node) : n.testWritten.kind = n.kind := by
  by_cases h : n.IsTest
  · cases h with
    | mk l ho b i => rw [testWritten_test l ho]; rfl
  · rw [testWritten_eq_self h]

theorem keepsTests_testWritten : KeepsTests (rewrite testWritten) :=
  keepsTests_rewrite kind_testWritten (fun _ => rfl) fun _ i => ⟨i, rfl⟩

end Node

namespace Dialect

/-- What a dialect writes out of the values of one node. -/
def written (d : Dialect) : Node → Node := if d = .mssql then Node.testWritten else id

theorem kind_written (d : Dialect) (n : Node) : (d.written n).kind = n.kind := by
  unfold written
  split
  · exact n.kind_testWritten
  · rfl

theorem written_eq_self {d : Dialect} {n : Node} (h : d = .mssql → ¬ n.IsTest) :
    d.written n = n := by
  unfold written
  split
  · rename_i hd
    exact Node.testWritten_eq_self (h hd)
  · rfl

theorem keepsTests_adapt (d : Dialect) : Node.KeepsTests (Node.rewrite d.adapt) :=
  Node.keepsTests_rewrite d.kind_adapt (fun _ => d.adapt_eq_self nofun nofun)
    fun _ i => ⟨i, d.adapt_eq_self nofun nofun⟩

theorem keepsTests_written (d : Dialect) : Node.KeepsTests (Node.rewrite d.written) :=
  Node.keepsTests_rewrite d.kind_written (fun _ => written_eq_self fun _ => nofun)
    fun _ i => ⟨i, written_eq_self fun _ => nofun⟩

end Dialect

namespace Node

theorem bound_paginateNode (d : Dialect) (style : Pagination) (bits : Bool) {n : Node}
    (h : bits = true → ¬ n.IsTest) (parent : Option Kind) :
    Piece.bound ((paginateNode style bits n).piecesIn d parent) =
      Piece.bound (n.piecesIn d parent) := by
  by_cases hs : n.kind = .selectQuery
  · obtain ⟨s⟩ := n
    cases s with
    | selectQuery p =>
      have hp : ∀ p, Piece.bound (piecesIn d ⟨.selectQuery p⟩ parent) = p.bound d := by
        intro p
        rw [piecesIn_mk, Shape.map_eq_each]
        exact Piece.bound_enclosed _ _ _
      exact (hp _).trans ((p.bound_paginate d style).trans (hp p).symm)
    | _ => cases hs
  by_cases hb : n.kind = .binaryOperation
  · have hself : paginateNode style bits n = n := by
      obtain ⟨s⟩ := n
      cases s with
      | binaryOperation l op r =>
        cases bits with
        | true => exact bitComparison_eq_self (h rfl)
        | false => rfl
      | _ => cases hb
    rw [hself]
  · rw [paginateNode_eq_self _ _ hs hb]

theorem bound_adapt (d : Dialect) {n : Node} (h : d = .mssql → ¬ n.IsTest)
    (parent : Option Kind) :
    Piece.bound ((d.adapt n).piecesIn d parent) = Piece.bound (n.piecesIn d parent) := by
  cases d with
  | mssql => exact bound_paginateNode _ _ _ (fun _ => h rfl) parent
  | oracle => exact bound_paginateNode _ .fetchNext false (fun h => nomatch h) parent
  | _ => rfl

theorem parameters_binaryOperation (d : Dialect) (l : Node) (o : Operator) (r : Node)
    (parent : Option Kind) :
    Piece.parameters (piecesIn d ⟨.binaryOperation l ⟨.operator o⟩ r⟩ parent) =
      Piece.parameters (l.piecesIn d (some .binaryOperation)) ++
        Piece.parameters (r.piecesIn d (some .binaryOperation)) := by
  have hsql : ∀ s, Piece.parameters (Layout.sql s) = [] := fun _ => rfl
  have hoperator : Piece.parameters (piecesIn d ⟨.operator o⟩ (some .binaryOperation)) = [] := rfl
  rw [piecesIn_mk, Shape.map_eq_each]
  simp only [Shape.each, Layout.pieces, Piece.parameters_append, hsql, List.append_nil]
  show _ ++ Piece.parameters (piecesIn d ⟨.operator o⟩ (some .binaryOperation)) ++ _ = _
  rw [hoperator, List.append_nil]
  rfl

/-- Without the truth value only the left of a test binds. -/
theorem bound_test (d : Dialect) (l : Node) (o : Operator) (v : Value) (parent : Option Kind) :
    Piece.bound (piecesIn d ⟨.binaryOperation l ⟨.operator o⟩ ⟨.value v true⟩⟩ parent) =
      Piece.bound (l.pieces d) := by
  have hvalue : Piece.parameters (piecesIn d ⟨.value v true⟩ (some .binaryOperation)) = [] := rfl
  rw [Piece.bound, parameters_binaryOperation, hvalue, List.append_nil]
  exact bound_piecesIn_parent d l _

theorem kind_of_usingJoin {s : Shape Node} (h : wellFormed ⟨s⟩ = true) {j : Node}
    (hj : (Slot.only .join, j) ∈ s.slotted) : j.kind = .join :=
  (eq_of_beq (wellFormed_mk_iff.mp h _ hj).1).symm

theorem parameters_tail_of_join (d : Dialect) {n : Node} (h : n.kind = .join)
    (parent : Option Kind) :
    Piece.parameters (n.piecesIn d parent).tail = Piece.parameters (n.piecesIn d parent) := by
  obtain ⟨s⟩ := n
  cases s with
  | join type table condition =>
    rw [piecesIn_mk, Shape.map_eq_each]
    rfl
  | _ => cases h

/-- Rewritings of selects and comparisons leave what layouts look at as it is. -/
theorem alike_rewrite {f g : Node → Node}
    (hf : ∀ n, n.kind ≠ .selectQuery → n.kind ≠ .binaryOperation → f n = n)
    (hg : ∀ n, n.kind ≠ .selectQuery → n.kind ≠ .binaryOperation → g n = n)
    (hkf : ∀ n, (f n).kind = n.kind) (hkg : ∀ n, (g n).kind = n.kind) (n : Node) :
    Layout.Alike (n.rewrite f) (n.rewrite g) := by
  have hkf := kind_rewrite hkf n
  have hkg := kind_rewrite hkg n
  by_cases hn : n.kind = .selectQuery ∨ n.kind = .binaryOperation
  · apply Layout.Alike.ofKind (hkg.trans hkf.symm)
    all_goals
      rw [hkf]
      obtain hn | hn := hn <;> simp [hn]
  · obtain ⟨hs, hb⟩ := not_or.mp hn
    obtain ⟨s⟩ := n
    have hself : ∀ f : Node → Node, (∀ n, n.kind ≠ .selectQuery → n.kind ≠ .binaryOperation →
        f n = n) → rewrite f ⟨s⟩ = ⟨s.map (rewrite f)⟩ := by
      intro f hf
      rw [rewrite_mk]
      apply hf
      · exact fun h => hs ((Shape.kind_map _ s).symm.trans h)
      · exact fun h => hb ((Shape.kind_map _ s).symm.trans h)
    rw [hself f hf, hself g hg]
    exact .map s _ _

theorem rewrite_test {f : Node → Node} (ho : ∀ o, f ⟨.operator o⟩ = ⟨.operator o⟩)
    (hv : ∀ v i, f ⟨.value v i⟩ = ⟨.value v i⟩) (l : Node) (o : Operator) (v : Value)
    (immediate : Bool) :
    rewrite f ⟨.binaryOperation l ⟨.operator o⟩ ⟨.value v immediate⟩⟩ =
      f ⟨.binaryOperation (l.rewrite f) ⟨.operator o⟩ ⟨.value v immediate⟩⟩ := by
  rw [rewrite_mk, Shape.map_eq_each]
  simp only [Shape.each, rewrite_of_no_children f (s := .operator o) rfl, ho,
    rewrite_of_no_children f (s := .value v immediate) rfl, hv]

theorem bound_tail_of_join (d : Dialect) {n : Node} (h : n.kind = .join)
    (parent : Option Kind) :
    Piece.bound (n.piecesIn d parent).tail = Piece.bound (n.piecesIn d parent) :=
  congrArg (fun vs : List Value => (vs : Multiset Value)) (parameters_tail_of_join d h parent)

section Test

variable (l : Node) {o o' : Operator} (ho : bitOperator? o = some o') (b immediate : Bool)
include ho

theorem rewrite_written_test :
    rewrite (Dialect.written .mssql)
        ⟨.binaryOperation l ⟨.operator o⟩ ⟨.value (.bool b) immediate⟩⟩ =
      ⟨.binaryOperation (l.rewrite (Dialect.written .mssql)) ⟨.operator o⟩
        ⟨.value (.bool b) true⟩⟩ := by
  rw [rewrite_test (fun _ => Dialect.written_eq_self fun _ => nofun)
    fun _ _ => Dialect.written_eq_self fun _ => nofun]
  exact testWritten_test _ ho b immediate

end Test

/-- In every dialect a tree binds what it binds with the written tests written out. -/
theorem bound_rewrite_adapt (d : Dialect) {n : Node} (h : n.wellFormed = true)
    (parent : Option Kind) :
    Piece.bound ((n.rewrite d.adapt).piecesIn d parent) =
      Piece.bound ((n.rewrite d.written).piecesIn .postgres parent) := by
  induction n using childrenInduction generalizing parent with
  | h s ih =>
    have hchild : ∀ c ∈ s.children, ∀ parent, Piece.bound ((c.rewrite d.adapt).piecesIn d parent) =
        Piece.bound ((c.rewrite d.written).piecesIn .postgres parent) :=
      fun c hc => ih c hc (wellFormed_of_mem_children h hc)
    by_cases ht : d = .mssql ∧ IsTest ⟨s⟩
    · obtain ⟨rfl, ht⟩ := ht
      cases ht with
      | mk l ho b i =>
        rw [Dialect.rewrite_adapt_test l ho, rewrite_written_test l ho, bound_test, bound_test]
        exact hchild l List.mem_cons_self none
    · have ht : d = .mssql → ¬ IsTest ⟨s⟩ := fun hd hs => ht ⟨hd, hs⟩
      have hc := Piece.bound_congruence d .postgres
      rw [rewrite_mk, rewrite_mk, Dialect.written_eq_self, bound_adapt, piecesIn_mk, piecesIn_mk,
        Shape.map_map, Shape.map_map, Shape.kind_map, Shape.kind_map]
      · apply hc.pieces
        · exact fun c hc => hchild c hc _
        · intro c hc
          exact alike_rewrite (fun n => d.adapt_eq_self)
            (fun n _ hb => Dialect.written_eq_self fun _ ht => hb ht.kind) d.kind_adapt
            d.kind_written c
        · intro hs
          rw [Shape.map_eq_each, Shape.map_eq_each]
          obtain ⟨name, rfl⟩ | ⟨v, immediate, rfl⟩ | ⟨vs, rfl⟩ := Layout.eq_of_isLeaf hs
          · rfl
          · cases immediate <;> rfl
          · rfl
        · intro j hj
          have hk := kind_of_usingJoin h hj
          refine (bound_tail_of_join d ((kind_rewrite d.kind_adapt j).trans hk) _).trans ?_
          refine Eq.trans ?_
            (bound_tail_of_join .postgres ((kind_rewrite d.kind_written j).trans hk) _).symm
          exact hchild j (Shape.mem_children_of_mem_slotted hj) _
      · exact fun hd hs => ht hd ((isTest_map d.keepsTests_adapt s).mp hs)
      · exact fun hd hs => ht hd ((isTest_map d.keepsTests_written s).mp hs)

theorem sublist_congruence (d : Dialect) :
    Layout.Congruence d d fun ps qs => (Piece.parameters ps).Sublist (Piece.parameters qs) :=
  .ofWords .slnil
    (fun h h' => by
      rw [Piece.parameters_append, Piece.parameters_append]
      exact h.append h')
    (fun _ => .slnil) (fun _ => .slnil) fun _ => .slnil

theorem parameters_testWritten_sublist (d : Dialect) {n : Node} (h : n.wellFormed = true)
    (parent : Option Kind) :
    (Piece.parameters ((n.rewrite testWritten).piecesIn d parent)).Sublist
      (Piece.parameters (n.piecesIn d parent)) := by
  induction n using childrenInduction generalizing parent with
  | h s ih =>
    have hchild : ∀ c ∈ s.children, ∀ parent,
        (Piece.parameters ((c.rewrite testWritten).piecesIn d parent)).Sublist
          (Piece.parameters (c.piecesIn d parent)) :=
      fun c hc => ih c hc (wellFormed_of_mem_children h hc)
    by_cases ht : IsTest ⟨s⟩
    · cases ht with
      | mk l ho b i =>
        rw [rewrite_test (fun _ => rfl) fun _ _ => rfl, testWritten_test _ ho,
          parameters_binaryOperation, parameters_binaryOperation]
        exact (hchild l List.mem_cons_self _).append (List.nil_sublist _)
    · have hc := sublist_congruence d
      rw [rewrite_mk,
        testWritten_eq_self fun hs => ht ((isTest_map keepsTests_testWritten s).mp hs),
        piecesIn_mk, piecesIn_mk, Shape.map_map, Shape.kind_map]
      apply hc.pieces
      · exact fun c hc => hchild c hc _
      · intro c hc
        have halike := alike_rewrite (f := testWritten) (g := id)
          (fun n _ hb => testWritten_eq_self fun ht => hb ht.kind) (fun _ _ _ => rfl)
          kind_testWritten (fun _ => rfl) c
        rwa [rewrite_id] at halike
      · intro hs
        rw [Shape.map_eq_each, Shape.map_eq_each]
        obtain ⟨name, rfl⟩ | ⟨v, immediate, rfl⟩ | ⟨vs, rfl⟩ := Layout.eq_of_isLeaf hs
        all_goals exact .refl _
      · intro j hj
        have hk := kind_of_usingJoin h hj
        have hsub := hchild j (Shape.mem_children_of_mem_slotted hj) (some s.kind)
        rwa [← parameters_tail_of_join d hk,
          ← parameters_tail_of_join d ((kind_rewrite kind_testWritten j).trans hk)] at hsub

/-- No parameter of the tree is the truth value of a test. -/
def BindsNoTest (n : Node) : Prop :=
  Piece.parameters ((n.rewrite testWritten).pieces .postgres) =
    Piece.parameters (n.pieces .postgres)

/-- Every test in the tree has its truth value written out. -/
def TestsWritten : Node → Prop :=
  para fun n s => n.testWritten = n ∧ ∀ p ∈ s.children, p.2

theorem testsWritten_mk (s : Shape Node) :
    TestsWritten ⟨s⟩ ↔ testWritten ⟨s⟩ = ⟨s⟩ ∧ ∀ c ∈ s.children, c.TestsWritten := by
  rw [TestsWritten, para_mk, Shape.children_map]
  simp only [List.mem_map, forall_exists_index, and_imp, forall_apply_eq_imp_iff₂]

theorem rewrite_testWritten_of_testsWritten {n : Node} (h : n.TestsWritten) :
    n.rewrite testWritten = n := by
  induction n using childrenInduction with
  | h s ih =>
    obtain ⟨hs, hchild⟩ := (testsWritten_mk s).mp h
    have hmap : s.map (rewrite testWritten) = s.map id :=
      s.map_congr fun c hc => ih c hc (hchild c hc)
    rw [rewrite_mk, hmap, Shape.map_id, hs]

theorem bindsNoTest_of_testsWritten {n : Node} (h : n.TestsWritten) : n.BindsNoTest := by
  rw [BindsNoTest, rewrite_testWritten_of_testsWritten h]

/-- All dialects bind the same values, in whatever order, exactly if no test binds its truth value:
where tests become comparisons with a bit, the truth value is written out. -/
theorem compile_parameters {n : Node} {compiled : Dialect → Compiled}
    (h : ∀ d, n.compile d = .ok (compiled d)) :
    (∀ d, d ≠ .mssql → (compiled d).parameters.Perm (Piece.parameters (n.pieces .postgres))) ∧
      (compiled .mssql).parameters.Perm
        (Piece.parameters ((n.rewrite testWritten).pieces .postgres)) ∧
      ((∀ d e, (compiled d).parameters.Perm (compiled e).parameters) ↔ n.BindsNoTest) := by
  have hw := wellFormed_of_compile_mssql (h .mssql)
  have hbound : ∀ d, (compiled d).parameters.Perm
      (Piece.parameters ((n.rewrite d.written).pieces .postgres)) := by
    intro d
    rw [parameters_of_compile_eq_ok hw (h d)]
    exact Multiset.coe_eq_coe.mp (bound_rewrite_adapt d hw none)
  have hother : ∀ d, d ≠ .mssql →
      (compiled d).parameters.Perm (Piece.parameters (n.pieces .postgres)) := by
    intro d hd
    have hd := hbound d
    rw [Dialect.written, if_neg ‹_›, rewrite_id] at hd
    exact hd
  have hmssql := hbound .mssql
  refine ⟨hother, hmssql, ?_, ?_⟩
  · intro hall
    have hperm := hmssql.symm.trans ((hall .mssql .postgres).trans (hother .postgres (by decide)))
    exact (parameters_testWritten_sublist .postgres hw none).eq_of_length hperm.length_eq
  · intro hnone
    have hall : ∀ d, (compiled d).parameters.Perm (Piece.parameters (n.pieces .postgres)) := by
      intro d
      by_cases hd : d = .mssql
      · subst hd
        exact hmssql.trans (.of_eq hnone)
      · exact hother d hd
    exact fun d e => (hall d).trans (hall e).symm

/-- A limit that moves in front of a bound list, beside a test that was written out. -/
theorem compile_parameters_limit :
    let n : Node := ⟨.selectQuery {
      selections := [⟨.selection ⟨.selectAll⟩⟩]
      whereClause := some ⟨.whereClause ⟨.and
        ⟨.binaryOperation ⟨.column ⟨.identifier "age"⟩⟩ ⟨.operator .isIn⟩
          ⟨.valueList (.primitive [.int 7, .null])⟩⟩
        ⟨.binaryOperation ⟨.column ⟨.identifier "active"⟩⟩ ⟨.operator .is⟩
          ⟨.value (.bool true) true⟩⟩⟩⟩
      limit := some ⟨.limit ⟨.value (.int 10) false⟩⟩ }⟩
    ∃ compiled : Dialect → Compiled, (∀ d, n.compile d = .ok (compiled d)) ∧
      (compiled .mssql).parameters = [.int 10, .int 7, .null] ∧
      (compiled .postgres).parameters = [.int 7, .null, .int 10] ∧
      ∀ d e, (compiled d).parameters.Perm (compiled e).parameters := by
  intro n
  have h : ∀ d, n.compile d = .ok ⟨n.rewrite d.adapt, Piece.sql d ((n.rewrite d.adapt).pieces d),
      Piece.parameters ((n.rewrite d.adapt).pieces d)⟩ := by
    intro d
    exact compile_of_no_refusal rfl (by cases d <;> rfl)
  exact ⟨_, h, rfl, rfl, (compile_parameters h).2.2.mpr rfl⟩

/-- A test that binds its truth value: four dialects bind it, and one writes it out. -/
theorem compile_parameters_bound_test :
    let n : Node := ⟨.binaryOperation ⟨.reference none ⟨.column ⟨.identifier "a"⟩⟩⟩
      ⟨.operator .is⟩ ⟨.value (.bool true) false⟩⟩
    ∃ compiled : Dialect → Compiled, (∀ d, n.compile d = .ok (compiled d)) ∧
      (compiled .mssql).parameters = [] ∧ (compiled .postgres).parameters = [.bool true] ∧
      ¬ ∀ d e, (compiled d).parameters.Perm (compiled e).parameters := by
  intro n
  have h : ∀ d, n.compile d = .ok ⟨n.rewrite d.adapt, Piece.sql d ((n.rewrite d.adapt).pieces d),
      Piece.parameters ((n.rewrite d.adapt).pieces d)⟩ := by
    intro d
    exact compile_of_no_refusal rfl (by cases d <;> rfl)
  refine ⟨_, h, rfl, rfl, fun hall => ?_⟩
  have hlength := (hall .mssql .postgres).length_eq
  cases hlength

end Node

end SqlTree
