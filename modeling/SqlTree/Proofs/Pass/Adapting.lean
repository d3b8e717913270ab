import SqlTree.Proofs.Tree.Rewriting
import SqlTree.Render.Compile

/-!
# Adapting trees to a dialect

A dialect rewrites one node at a time and keeps kinds, so a well-formed tree is always adapted
(`Dialect.apply_eq_rewrite`).  Moving a limit does not look at the rows it allows
(`Select.paginate_each`).
-/

namespace SqlTree

theorem paginateNode_eq_self (style : Pagination) (bits : Bool) {n : Node}
    (hs : n.kind ≠ .selectQuery) (hb : n.kind ≠ .binaryOperation) :
    paginateNode style bits n = n := by
  obtain ⟨s⟩ := n
  cases s with
  | selectQuery p => exact absurd rfl hs
  | binaryOperation l op r => exact absurd rfl hb
  | _ => rfl

theorem kind_paginateNode (style : Pagination) (bits : Bool) (n : Node) :
    (paginateNode style bits n).kind = n.kind := by
  unfold paginateNode
  split
  · rfl
  · split
    · unfold bitComparison
      split
      · split
        · rfl
        · rfl
      · rfl
    · rfl
  · rfl

namespace Node

/-- Tests for truth, whose comparison with a bit is another one. -/
inductive IsTest : Node → Prop
  | mk (l : Node) {o o' : Operator} (h : bitOperator? o = some o') (b immediate : Bool) :
    IsTest ⟨.binaryOperation l ⟨.operator o⟩ ⟨.value (.bool b) immediate⟩⟩

theorem IsTest.kind {n : Node} (h : n.IsTest) : n.kind = .binaryOperation := by
  cases h
  rfl

/-- Functions of trees under which a test stays one. -/
structure KeepsTests (g : Node → Node) : Prop where
  operator : ∀ n o, g n = ⟨.operator o⟩ ↔ n = ⟨.operator o⟩
  truth : ∀ n b, (∃ i, g n = ⟨.value (.bool b) i⟩) ↔ ∃ i, n = ⟨.value (.bool b) i⟩

theorem isTest_binaryOperation {l op r : Node} :
    IsTest ⟨.binaryOperation l op r⟩ ↔
      (∃ o, op = ⟨.operator o⟩ ∧ (bitOperator? o).isSome = true) ∧
        ∃ b i, r = ⟨.value (.bool b) i⟩ := by
  constructor
  · intro h
    cases h with
    | mk _ h b i => exact ⟨⟨_, rfl, by rw [h]; rfl⟩, b, i, rfl⟩
  · rintro ⟨⟨o, rfl, ho⟩, b, i, rfl⟩
    obtain ⟨o', ho'⟩ := Option.isSome_iff_exists.mp ho
    exact .mk l ho' b i

theorem isTest_map {g : Node → Node} (hg : KeepsTests g) (s : Shape Node) :
    IsTest ⟨s.map g⟩ ↔ IsTest ⟨s⟩ := by
  by_cases hs : s.kind = .binaryOperation
  · rw [Shape.map_eq_each]
    cases s with
    | binaryOperation l op r =>
      rw [Shape.each, isTest_binaryOperation, isTest_binaryOperation]
      simp only [hg.operator, hg.truth]
    | _ => cases hs
  · constructor
    · exact fun h => absurd ((Shape.kind_map g s).symm.trans h.kind) hs
    · exact fun h => absurd h.kind hs

theorem keepsTests_rewrite {f : Node → Node} (hk : ∀ n, (f n).kind = n.kind)
    (ho : ∀ o, f ⟨.operator o⟩ = ⟨.operator o⟩)
    (hv : ∀ v i, ∃ j, f ⟨.value v i⟩ = ⟨.value v j⟩) : KeepsTests (rewrite f) where
  operator n o := by
    constructor
    · intro h
      have hn := kind_rewrite hk n
      rw [h] at hn
      obtain ⟨s⟩ := n
      cases s with
      | operator p =>
        rw [rewrite_of_no_children _ rfl, ho] at h
        exact h
      | _ => cases hn
    · rintro rfl
      rw [rewrite_of_no_children _ rfl, ho]
  truth n b := by
    constructor
    · rintro ⟨i, h⟩
      have hn := kind_rewrite hk n
      rw [h] at hn
      obtain ⟨s⟩ := n
      cases s with
      | value v j =>
        obtain ⟨k, hfk⟩ := hv v j
        rw [rewrite_of_no_children _ rfl, hfk] at h
        injection h with h
        injection h with hvb
        exact ⟨j, by rw [hvb]⟩
      | _ => cases hn
    · rintro ⟨i, rfl⟩
      obtain ⟨j, hj⟩ := hv (.bool b) i
      exact ⟨j, by rw [rewrite_of_no_children _ rfl, hj]⟩

end Node

theorem bitComparison_eq_self {n : Node} (h : ¬ n.IsTest) : bitComparison n = n := by
  unfold bitComparison
  split
  · split
    · rename_i ho
      exact absurd (.mk _ ho _ _) h
    · rfl
  · rfl

theorem bitComparison_test (l : Node) {o o' : Operator} (h : bitOperator? o = some o')
    (b immediate : Bool) :
    bitComparison ⟨.binaryOperation l ⟨.operator o⟩ ⟨.value (.bool b) immediate⟩⟩ =
      ⟨.binaryOperation l ⟨.operator o'⟩ ⟨.value (.int (if b then 1 else 0)) true⟩⟩ := by
  simp only [bitComparison, h]

namespace Node

/-- A rewriting that leaves comparisons, operators and bits can be done before or after tests for
truth become comparisons with bits. -/
theorem bitComparison_rewrite {f : Node → Node} (hk : ∀ n, (f n).kind = n.kind)
    (hb : ∀ l op r, f ⟨.binaryOperation l op r⟩ = ⟨.binaryOperation l op r⟩)
    (ho : ∀ o, f ⟨.operator o⟩ = ⟨.operator o⟩) (hv : ∀ v i, ∃ j, f ⟨.value v i⟩ = ⟨.value v j⟩)
    (hbit : ∀ k, f ⟨.value (.int k) true⟩ = ⟨.value (.int k) true⟩) (l op r : Node) :
    bitComparison (rewrite f ⟨.binaryOperation l op r⟩) =
      (bitComparison ⟨.binaryOperation l op r⟩).rewrite f := by
  have hrewrite : ∀ l op r, rewrite f ⟨.binaryOperation l op r⟩ =
      ⟨.binaryOperation (rewrite f l) (rewrite f op) (rewrite f r)⟩ := by
    intro l op r
    rw [rewrite_mk, Shape.map_eq_each, Shape.each, hb]
  by_cases h : IsTest ⟨.binaryOperation l op r⟩
  · cases h with
    | mk _ hop b i =>
      obtain ⟨j, hj⟩ := hv (.bool b) i
      have hoperator : ∀ o, rewrite f ⟨.operator o⟩ = ⟨.operator o⟩ :=
        fun o => (rewrite_of_no_children f rfl).trans (ho o)
      have hvalue : ∀ v i, rewrite f ⟨.value v i⟩ = f ⟨.value v i⟩ :=
        fun _ _ => rewrite_of_no_children f rfl
      rw [bitComparison_test l hop, hrewrite, hrewrite, hoperator, hoperator, hvalue, hvalue, hj,
        hbit, bitComparison_test _ hop]
  · have htest : ¬ IsTest ⟨(Shape.binaryOperation l op r).map (rewrite f)⟩ :=
      fun ht => h ((isTest_map (keepsTests_rewrite hk ho hv) _).mp ht)
    rw [Shape.map_eq_each] at htest
    rw [bitComparison_eq_self h, hrewrite]
    exact bitComparison_eq_self htest

/-- Functions of trees that go on below the rows of a limit, and leave no order as it is. -/
structure KeepsLimits (g : Node → Node) : Prop where
  kind : ∀ n, (g n).kind = n.kind
  limit : ∀ rows, g ⟨.limit rows⟩ = ⟨.limit (g rows)⟩
  fetch : ∀ rows m, g ⟨.fetch rows m⟩ = ⟨.fetch (g rows) m⟩
  top : ∀ rows m, g ⟨.top rows m⟩ = ⟨.top (g rows) m⟩
  anyOrder : g Select.anyOrder = Select.anyOrder

end Node

namespace Select

theorem limit_of_limitRows? {p : Select Node} {rows : Node} (h : p.limitRows? = some rows) :
    p.limit = some ⟨.limit rows⟩ := by
  unfold limitRows? at h
  split at h
  · rename_i hp
    rw [hp, Option.some.inj h]
  · cases h

theorem limitRows?_eq_none {p : Select Node} {n : Node} (hp : p.limit = some n)
    (hn : n.kind ≠ .limit) : p.limitRows? = none := by
  obtain ⟨s⟩ := n
  rw [limitRows?, hp]
  cases s with
  | limit rows => exact absurd rfl hn
  | _ => rfl

section Natural

variable {g : Node → Node} (hg : Node.KeepsLimits g)
include hg

theorem limitRows?_each (p : Select Node) : (p.each g).limitRows? = p.limitRows?.map g := by
  cases hp : p.limit with
  | none => simp [limitRows?, each, hp]
  | some n =>
    by_cases hn : n.kind = .limit
    · obtain ⟨s⟩ := n
      cases s with
      | limit rows => simp [limitRows?, each, hp, hg.limit]
      | _ => cases hn
    · have hgn : (g n).kind ≠ .limit := by rwa [hg.kind]
      rw [limitRows?_eq_none hp hn, limitRows?_eq_none (by simp [each, hp]) hgn]
      rfl

theorem limitAsFetch_each (p : Select Node) : (p.each g).limitAsFetch = p.limitAsFetch.each g := by
  unfold limitAsFetch
  rw [limitRows?_each hg]
  cases p.limitRows? with
  | none => rfl
  | some rows =>
    cases hp : p.fetch with
    | none => simp [each, hp, hg.fetch]
    | some n => simp [each, hp]

theorem limitAsTop_each (p : Select Node) : (p.each g).limitAsTop = p.limitAsTop.each g := by
  unfold limitAsTop
  rw [limitRows?_each hg]
  cases p.limitRows? with
  | none => rfl
  | some rows =>
    cases hp : p.top with
    | none => simp [each, hp, hg.top]
    | some n => simp [each, hp]

theorem ordered_each (p : Select Node) : (p.each g).ordered = p.ordered.each g := by
  unfold ordered
  cases hp : p.orderBy with
  | none => simp [each, hp, hg.anyOrder]
  | some n => simp [each, hp]

/-- A limit is moved with its rows, whatever these are. -/
theorem paginate_each (style : Pagination) (p : Select Node) :
    (p.each g).paginate style = (p.paginate style).each g := by
  cases style with
  | limitOffset => rfl
  | fetchNext => exact limitAsFetch_each hg p
  | topOrFetch =>
    have hoffset : (p.each g).offset.isNone = p.offset.isNone := Option.isNone_map
    simp only [paginate, hoffset]
    split
    · exact limitAsTop_each hg p
    · rw [limitAsFetch_each hg, ordered_each hg]

end Natural

end Select

namespace Dialect

/-- What a dialect does to one node before a tree is written. -/
def adapt (d : Dialect) : Node → Node :=
  match d with
  | .mssql => paginateNode d.pagination true
  | .oracle => paginateNode d.pagination false
  | _ => id

theorem adapt_eq_self (d : Dialect) {n : Node} (hs : n.kind ≠ .selectQuery)
    (hb : n.kind ≠ .binaryOperation) : d.adapt n = n := by
  cases d with
  | mssql => exact paginateNode_eq_self _ _ hs hb
  | oracle => exact paginateNode_eq_self _ _ hs hb
  | _ => rfl

/-- Of the comparisons only tests for truth are adapted. -/
theorem adapt_of_not_isTest (d : Dialect) {n : Node} (hs : n.kind ≠ .selectQuery)
    (ht : ¬ n.IsTest) : d.adapt n = n := by
  by_cases hb : n.kind = .binaryOperation
  · obtain ⟨s⟩ := n
    cases s with
    | binaryOperation l op r =>
      cases d with
      | mssql => exact bitComparison_eq_self ht
      | _ => rfl
    | _ => cases hb
  · exact d.adapt_eq_self hs hb

theorem kind_adapt (d : Dialect) (n : Node) : (d.adapt n).kind = n.kind := by
  cases d with
  | mssql => exact kind_paginateNode _ _ n
  | oracle => exact kind_paginateNode _ _ n
  | _ => rfl

theorem rewrite_adapt_mk (d : Dialect) {s : Shape Node} (hs : s.kind ≠ .selectQuery)
    (hb : s.kind ≠ .binaryOperation) :
    Node.rewrite d.adapt ⟨s⟩ = ⟨s.each (Node.rewrite d.adapt)⟩ := by
  rw [Node.rewrite_mk, ← Shape.map_eq_each]
  apply d.adapt_eq_self
  · exact fun h => hs ((Shape.kind_map _ s).symm.trans h)
  · exact fun h => hb ((Shape.kind_map _ s).symm.trans h)

theorem rewrite_adapt_test (l : Node) {o o' : Operator} (ho : bitOperator? o = some o')
    (b immediate : Bool) :
    Node.rewrite (adapt .mssql)
        ⟨.binaryOperation l ⟨.operator o⟩ ⟨.value (.bool b) immediate⟩⟩ =
      ⟨.binaryOperation (l.rewrite (adapt .mssql)) ⟨.operator o'⟩
        ⟨.value (.int (if b then 1 else 0)) true⟩⟩ := by
  rw [Node.rewrite_mk, Shape.map_eq_each, Shape.each]
  exact bitComparison_test _ ho b immediate

theorem apply_eq_rewrite (d : Dialect) {n : Node} (h : n.wellFormed = true) :
    d.apply n = .ok (n.rewrite d.adapt) := by
  cases d with
  | mssql => exact Node.transform_eq_rewrite (kind_paginateNode _ _) h
  | oracle => exact Node.transform_eq_rewrite (kind_paginateNode _ _) h
  | _ => exact congrArg Except.ok n.rewrite_id.symm

end Dialect

namespace Node

theorem compile_of_refusal {d : Dialect} {n : Node} {f : Feature} (h : n.wellFormed = true)
    (hr : Piece.refusal? ((n.rewrite d.adapt).pieces d) = some f) :
    n.compile d = .error (.unsupported d.name f) := by
  simp only [compile, d.apply_eq_rewrite h, bind, Except.bind, render_of_refusal hr]

theorem compile_of_no_refusal {d : Dialect} {n : Node} (h : n.wellFormed = true)
    (hr : Piece.refusal? ((n.rewrite d.adapt).pieces d) = none) :
    n.compile d = .ok ⟨n.rewrite d.adapt, Piece.sql d ((n.rewrite d.adapt).pieces d),
      Piece.parameters ((n.rewrite d.adapt).pieces d)⟩ := by
  simp only [compile, d.apply_eq_rewrite h, bind, Except.bind, render_of_no_refusal hr]
  rfl

theorem sql_of_render_eq_ok {d : Dialect} {n : Node} {sql : String} {values : List Value}
    (h : n.render d = .ok (sql, values)) : sql = Piece.sql d (n.pieces d) := by
  cases hr : Piece.refusal? (n.pieces d) with
  | some f =>
    rw [render_of_refusal hr] at h
    cases h
  | none =>
    rw [render_of_no_refusal hr] at h
    cases h
    rfl

theorem eq_of_compile_eq_ok {d : Dialect} {n : Node} (h : n.wellFormed = true)
    {c : Compiled} (hc : n.compile d = .ok c) :
    c = ⟨n.rewrite d.adapt, Piece.sql d ((n.rewrite d.adapt).pieces d),
      Piece.parameters ((n.rewrite d.adapt).pieces d)⟩ := by
  cases hr : Piece.refusal? ((n.rewrite d.adapt).pieces d) with
  | some f =>
    rw [compile_of_refusal h hr] at hc
    cases hc
  | none =>
    rw [compile_of_no_refusal h hr] at hc
    cases hc
    rfl

theorem parameters_of_compile_eq_ok {d : Dialect} {n : Node} (h : n.wellFormed = true)
    {c : Compiled} (hc : n.compile d = .ok c) :
    c.parameters = Piece.parameters ((n.rewrite d.adapt).pieces d) := by
  rw [eq_of_compile_eq_ok h hc]

/-- A dialect that rewrites trees compiles well-formed ones only. -/
theorem wellFormed_of_compile_mssql {n : Node} {c : Compiled}
    (hc : n.compile .mssql = .ok c) : n.wellFormed = true := by
  cases ha : Dialect.apply .mssql n with
  | error e =>
    rw [compile, ha] at hc
    cases hc
  | ok m => exact wellFormed_of_transformBelow_eq_ok (fun n _ => kind_paginateNode _ _ n) n [] ha

end Node

end SqlTree
