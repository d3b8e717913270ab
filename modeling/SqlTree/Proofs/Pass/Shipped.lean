import SqlTree.Proofs.Pass.Faults
import SqlTree.Proofs.Pass.Leaves
import SqlTree.Plugin

/-!
# The plugins that are shipped

Qualifying tables, respelling names and dropping repeated joins change no failure: a name is never
refused, and a join that is dropped is refused for what the join it repeats is refused for.  So with
any of these plugins, in any order, a tree fails to compile where it fails without them
(`Plugin.compileWith_shipped`).
-/

namespace SqlTree

namespace Node

variable {d : Dialect}

section Leaves

variable {s t : Shape Node}

/-- Names and values are never refused, whatever they are. -/
theorem failsAlike_of_isLeaf (hs : Layout.isLeaf s = true) (ht : Layout.isLeaf t = true)
    (hk : s.kind = t.kind) : FailsAlike d ⟨s⟩ ⟨t⟩ := by
  rw [FailsAlike, rewrite_adapt_of_isLeaf d hs, rewrite_adapt_of_isLeaf d ht]
  refine ⟨hk, ?_, ?_⟩
  · obtain ⟨name, rfl⟩ | ⟨v, immediate, rfl⟩ | ⟨vs, rfl⟩ := Layout.eq_of_isLeaf hs
    all_goals
      obtain ⟨name', rfl⟩ | ⟨v', immediate', rfl⟩ | ⟨vs', rfl⟩ := Layout.eq_of_isLeaf ht
      all_goals exact ⟨rfl, rfl, rfl⟩
  · rw [refusal?_of_isLeaf d hs, refusal?_of_isLeaf d ht]

theorem wellFormed_of_isLeaf (h : Layout.isLeaf s = true) : wellFormed ⟨s⟩ = true := by
  obtain ⟨name, rfl⟩ | ⟨v, immediate, rfl⟩ | ⟨vs, rfl⟩ := Layout.eq_of_isLeaf h
  all_goals rfl

end Leaves

theorem keepsFaults_bare : KeepsFaults fun n _ => n.bare where
  kind n _ := n.kind_bare
  wellFormed n _ h := by
    unfold bare
    split
    · exact wellFormed_of_isLeaf rfl
    · exact wellFormed_of_isLeaf rfl
    · exact h
  failsAlike d n _ _ := by
    unfold bare
    split
    · exact failsAlike_of_isLeaf rfl rfl rfl
    · exact failsAlike_of_isLeaf rfl rfl rfl
    · exact .refl _

/-- Equal trees fail alike: they differ in values only. -/
theorem failsAlike_of_beq {m n : Node} (hm : m.wellFormed = true) (hn : n.wellFormed = true)
    (h : (m == n) = true) : FailsAlike d m n := by
  have hbare : ∀ n : Node, n.wellFormed = true → FailsAlike d n (n.rewrite bare) := by
    intro n hn
    have hrewritten := keepsFaults_bare.failsAlike_rewritten d hn []
    rwa [rewritten_eq_rewrite] at hrewritten
  have hm := hbare m hm
  rw [bare_of_beq h] at hm
  exact hm.trans (hbare n hn).symm

end Node

namespace CamelCase

theorem keepsFaults_respell (o : CamelCase) : Node.KeepsFaults fun n _ => o.respell n where
  kind n _ := by
    unfold respell
    split <;> rfl
  wellFormed n _ h := by
    unfold respell
    split
    · exact Node.wellFormed_of_isLeaf rfl
    · exact h
  failsAlike d n _ _ := by
    unfold respell
    split
    · exact Node.failsAlike_of_isLeaf rfl rfl rfl
    · exact .refl _

end CamelCase

namespace WithSchema

open Node

/-- A schema in front of a name is not refused. -/
theorem failsAlike_qualified (d : Dialect) (schema : String) (name : Node) :
    FailsAlike d ⟨.schemableIdentifier none name⟩
      ⟨.schemableIdentifier (some (.identifier schema)) name⟩ := by
  have hrewrite : ∀ o : Option Node, rewrite d.adapt ⟨.schemableIdentifier o name⟩ =
      ⟨.schemableIdentifier (o.map (rewrite d.adapt)) (name.rewrite d.adapt)⟩ :=
    fun _ => d.rewrite_adapt_mk (by simp [Shape.kind]) (by simp [Shape.kind])
  have hschema : rewrite d.adapt (.identifier schema) = .identifier schema :=
    rewrite_adapt_of_isLeaf d rfl
  have hname : Piece.refusal? (piecesIn d (.identifier schema) (some .schemableIdentifier)) =
      none := rfl
  rw [FailsAlike, hrewrite, hrewrite, Option.map_some, hschema]
  refine ⟨rfl, ⟨rfl, rfl, rfl⟩, ?_⟩
  rw [refusal?, refusal?, pieces, pieces, piecesIn_mk, piecesIn_mk, Shape.map_eq_each,
    Shape.map_eq_each]
  simp only [Shape.each, Shape.kind, Layout.pieces, Option.map_some, Option.map_none,
    Piece.refusal?_append, Piece.refusal?_sql, hname, Option.none_or, List.nil_append]

theorem qualify_cases (schema : String) (tables defined : List String) (n : Node)
    (ancestors : List Node) :
    qualify schema tables defined n ancestors = n ∨
      ∃ name, n = ⟨.schemableIdentifier none name⟩ ∧
        qualify schema tables defined n ancestors =
          ⟨.schemableIdentifier (some (.identifier schema)) name⟩ := by
  unfold qualify
  split
  · rename_i name
    split
    · split
      · exact .inl rfl
      · split
        · exact .inr ⟨name, rfl, rfl⟩
        · exact .inl rfl
    · exact .inl rfl
  · exact .inl rfl

theorem keepsFaults_qualify (schema : String) (tables defined : List String) :
    KeepsFaults (qualify schema tables defined) where
  kind n ancestors := by
    obtain h | ⟨name, rfl, h⟩ := qualify_cases schema tables defined n ancestors
    · rw [h]
    · rw [h]
      rfl
  wellFormed n ancestors hn := by
    obtain h | ⟨name, rfl, h⟩ := qualify_cases schema tables defined n ancestors
    · rwa [h]
    · rw [h]
      have hname := wellFormed_mk_iff.mp hn (.only .identifier, name) List.mem_cons_self
      refine wellFormed_mk_iff.mpr (List.forall_mem_cons.mpr ⟨⟨rfl, rfl⟩, ?_⟩)
      exact List.forall_mem_singleton.mpr hname
  failsAlike d n ancestors _ := by
    obtain h | ⟨name, rfl, h⟩ := qualify_cases schema tables defined n ancestors
    · rw [h]
    · rw [h]
      exact failsAlike_qualified d schema name

end WithSchema

namespace Select

/-- The select with other joins. -/
def withJoins {α : Type} (p : Select α) (js : List α) : Select α := { p with joins := js }

section Joins

variable (p : Select Node) (js : List Node)

theorem limitAsFetch_withJoins :
    (p.withJoins js).limitAsFetch = p.limitAsFetch.withJoins js := by
  have hrows : (p.withJoins js).limitRows? = p.limitRows? := rfl
  unfold limitAsFetch
  rw [hrows]
  cases p.limitRows? <;> cases hf : p.fetch <;> simp [withJoins, hf]

theorem limitAsTop_withJoins : (p.withJoins js).limitAsTop = p.limitAsTop.withJoins js := by
  have hrows : (p.withJoins js).limitRows? = p.limitRows? := rfl
  unfold limitAsTop
  rw [hrows]
  cases p.limitRows? <;> cases ht : p.top <;> simp [withJoins, ht]

theorem ordered_withJoins : (p.withJoins js).ordered = p.ordered.withJoins js := by
  unfold ordered withJoins
  split <;> rfl

/-- A limit is moved whatever the joins are. -/
theorem paginate_withJoins (style : Pagination) :
    (p.withJoins js).paginate style = (p.paginate style).withJoins js := by
  cases style with
  | limitOffset => rfl
  | fetchNext => exact limitAsFetch_withJoins p js
  | topOrFetch =>
    have hoffset : (p.withJoins js).offset = p.offset := rfl
    simp only [paginate, hoffset]
    split
    · exact limitAsTop_withJoins p js
    · rw [limitAsFetch_withJoins, ordered_withJoins]

theorem joins_paginate (style : Pagination) : (p.paginate style).joins = p.joins := by
  have hself : p.paginate style = (p.paginate style).withJoins p.joins :=
    paginate_withJoins p p.joins style
  rw [hself]
  rfl

end Joins

end Select

namespace DeduplicateJoins

open Node

theorem firsts_sublist (seen js : List Node) : (firsts seen js).Sublist js := by
  induction js generalizing seen with
  | nil => exact .slnil
  | cons j js ih =>
    unfold firsts
    split
    · exact .cons j (ih seen)
    · exact .cons_cons j (ih _)

/-- What is found first is not found at a node that repeats an earlier one. -/
theorem findSome?_firsts {α : Type} {φ : Node → Option α} {P : Node → Prop}
    (hφ : ∀ a b, P a → P b → (a == b) = true → φ a = φ b) {js : List Node} (hjs : ∀ j ∈ js, P j)
    {seen : List Node} (hseen : ∀ a ∈ seen, P a ∧ φ a = none) :
    (firsts seen js).findSome? φ = js.findSome? φ := by
  induction js generalizing seen with
  | nil => rfl
  | cons j js ih =>
    obtain ⟨hj, hjs⟩ := List.forall_mem_cons.mp hjs
    unfold firsts
    split
    · rename_i hany
      obtain ⟨a, ha, haj⟩ := List.any_eq_true.mp hany
      obtain ⟨hPa, hnone⟩ := hseen a ha
      have hφj : φ j = none := (hφ a j hPa hj haj).symm.trans hnone
      rw [ih hjs hseen, List.findSome?_cons, hφj]
    · rw [List.findSome?_cons, List.findSome?_cons]
      cases hφj : φ j with
      | some f => rfl
      | none =>
        apply ih hjs
        intro a ha
        obtain ha | rfl := List.mem_append.mp ha |>.imp_right List.mem_singleton.mp
        · exact hseen a ha
        · exact ⟨hj, hφj⟩

section Joins

variable (d : Dialect) {js : List Node}

theorem refusal?_clauses_map (k : Kind) (js : List Node) :
    Piece.refusal? (Layout.clauses (js.map fun c => (c, c.piecesIn d (some k)))) =
      js.findSome? (Node.refusal? d) := by
  simp only [Piece.refusal?_clauses, List.findSome?_map, Function.comp_def, refusal?_piecesIn]

theorem refusedAlike_select_joins {p : Select Node}
    (h : p.joins.findSome? (Node.refusal? d) = js.findSome? (Node.refusal? d)) :
    RefusedAlike d ⟨.selectQuery p⟩ ⟨.selectQuery (p.withJoins js)⟩ := by
  refine ⟨rfl, ⟨rfl, rfl, rfl⟩, ?_⟩
  rw [Node.refusal?, Node.refusal?, pieces, pieces, piecesIn_mk, piecesIn_mk, Shape.map_eq_each,
    Shape.map_eq_each]
  simp only [Shape.each, Shape.kind, Select.each, Select.withJoins, Layout.pieces,
    Piece.refusal?_enclosed, Layout.select, Piece.refusal?_append, refusal?_clauses_map, h]

theorem refusedAlike_update_joins {p : Update Node}
    (h : p.joins.findSome? (Node.refusal? d) = js.findSome? (Node.refusal? d)) :
    RefusedAlike d ⟨.updateQuery p⟩ ⟨.updateQuery { p with joins := js }⟩ := by
  refine ⟨rfl, ⟨rfl, rfl, rfl⟩, ?_⟩
  rw [Node.refusal?, Node.refusal?, pieces, pieces, piecesIn_mk, piecesIn_mk, Shape.map_eq_each,
    Shape.map_eq_each]
  cases hf : p.fromClause <;>
    simp [Shape.each, Shape.kind, Update.each, Layout.pieces, Layout.update, refusal?_clauses_map,
      h, hf]

theorem refusedAlike_delete_joins {p : Delete Node}
    (h : p.joins.findSome? (Node.refusal? d) = js.findSome? (Node.refusal? d)) :
    RefusedAlike d ⟨.deleteQuery p⟩ ⟨.deleteQuery { p with joins := js }⟩ := by
  refine ⟨rfl, ⟨rfl, rfl, rfl⟩, ?_⟩
  rw [Node.refusal?, Node.refusal?, pieces, pieces, piecesIn_mk, piecesIn_mk, Shape.map_eq_each,
    Shape.map_eq_each]
  simp only [Shape.each, Shape.kind, Delete.each, Layout.pieces, Piece.refusal?_enclosed,
    Layout.delete, Piece.refusal?_append, refusal?_clauses_map, h]

theorem failsAlike_select_joins {p : Select Node}
    (h : p.joins.findSome? (fault? d) = js.findSome? (fault? d)) :
    FailsAlike d ⟨.selectQuery p⟩ ⟨.selectQuery (p.withJoins js)⟩ := by
  have hrewrite : ∀ p : Select Node, rewrite d.adapt ⟨.selectQuery p⟩ =
      ⟨.selectQuery ((p.each (rewrite d.adapt)).paginate d.pagination)⟩ := by
    intro p
    rw [rewrite_mk, Shape.map_eq_each]
    exact d.adapt_selectQuery _
  have heach : (p.withJoins js).each (rewrite d.adapt) =
      (p.each (rewrite d.adapt)).withJoins (js.map (rewrite d.adapt)) := rfl
  rw [FailsAlike, hrewrite, hrewrite, heach, Select.paginate_withJoins]
  apply refusedAlike_select_joins
  rw [Select.joins_paginate]
  simp only [Select.each, List.findSome?_map]
  exact h

theorem failsAlike_update_joins {p : Update Node}
    (h : p.joins.findSome? (fault? d) = js.findSome? (fault? d)) :
    FailsAlike d ⟨.updateQuery p⟩ ⟨.updateQuery { p with joins := js }⟩ := by
  have hrewrite : ∀ p : Update Node, rewrite d.adapt ⟨.updateQuery p⟩ =
      ⟨.updateQuery (p.each (rewrite d.adapt))⟩ :=
    fun _ => d.rewrite_adapt_mk (by simp [Shape.kind]) (by simp [Shape.kind])
  rw [FailsAlike, hrewrite, hrewrite]
  apply refusedAlike_update_joins
  simp only [Update.each, List.findSome?_map]
  exact h

theorem failsAlike_delete_joins {p : Delete Node}
    (h : p.joins.findSome? (fault? d) = js.findSome? (fault? d)) :
    FailsAlike d ⟨.deleteQuery p⟩ ⟨.deleteQuery { p with joins := js }⟩ := by
  have hrewrite : ∀ p : Delete Node, rewrite d.adapt ⟨.deleteQuery p⟩ =
      ⟨.deleteQuery (p.each (rewrite d.adapt))⟩ :=
    fun _ => d.rewrite_adapt_mk (by simp [Shape.kind]) (by simp [Shape.kind])
  rw [FailsAlike, hrewrite, hrewrite]
  apply refusedAlike_delete_joins
  simp only [Delete.each, List.findSome?_map]
  exact h

/-- Joins that repeat earlier ones hide no failure and add none. -/
theorem findSome?_fault_firsts {s : Shape Node} (h : wellFormed ⟨s⟩ = true)
    (hjs : ∀ j ∈ js, j ∈ s.children) :
    js.findSome? (fault? d) = (firsts [] js).findSome? (fault? d) := by
  refine (findSome?_firsts (P := fun j => j.wellFormed = true) ?_ ?_ ?_).symm
  · exact fun a b ha hb hab => (failsAlike_of_beq ha hb hab).fault?_eq
  · exact fun j hj => wellFormed_of_mem_children h (hjs j hj)
  · exact List.forall_mem_nil _

end Joins

/-- A node whose fields hold no more than those of a well-formed one is well formed. -/
theorem wellFormed_of_fields {s t : Shape Node} (h : wellFormed ⟨s⟩ = true)
    (hst : List.Forall₂ (fun x y => x.2.slotted ⊆ y.2.slotted) t.fields s.fields) :
    wellFormed ⟨t⟩ = true := by
  have hsub : ∀ {xs ys : List (String × Field Node)},
      List.Forall₂ (fun x y => x.2.slotted ⊆ y.2.slotted) xs ys →
        xs.flatMap (·.2.slotted) ⊆ ys.flatMap (·.2.slotted) := by
    intro xs ys hxs
    induction hxs with
    | nil => exact List.Subset.refl _
    | cons hxy _ ih =>
      rw [List.flatMap_cons, List.flatMap_cons]
      exact List.append_subset.mpr ⟨List.subset_append_of_subset_left _ hxy,
        List.subset_append_of_subset_right _ ih⟩
  exact wellFormed_mk_iff.mpr fun x hx => wellFormed_mk_iff.mp h x (hsub hst hx)

theorem map_firsts_subset {α : Type} (f : Node → α) (js : List Node) :
    (firsts [] js).map f ⊆ js.map f :=
  List.map_subset f (firsts_sublist [] js).subset

theorem keepsFaults_deduplicate : KeepsFaults fun n _ => deduplicate n where
  kind n _ := by
    unfold deduplicate
    split <;> rfl
  wellFormed n _ h := by
    unfold deduplicate
    split
    · apply wellFormed_of_fields h
      simp [Shape.fields, Select.fields, List.forall₂_cons, map_firsts_subset]
    · apply wellFormed_of_fields h
      simp [Shape.fields, Update.fields, List.forall₂_cons, map_firsts_subset]
    · apply wellFormed_of_fields h
      simp [Shape.fields, Delete.fields, List.forall₂_cons, map_firsts_subset]
    · exact h
  failsAlike d n _ h := by
    unfold deduplicate
    split
    · apply failsAlike_select_joins
      apply findSome?_fault_firsts d h
      intro j hj
      simp [Shape.children, Shape.fields, Select.fields, Field.toList, hj]
    · apply failsAlike_update_joins
      apply findSome?_fault_firsts d h
      intro j hj
      simp [Shape.children, Shape.fields, Update.fields, Field.toList, hj]
    · apply failsAlike_delete_joins
      apply findSome?_fault_firsts d h
      intro j hj
      simp [Shape.children, Shape.fields, Delete.fields, Field.toList, hj]
    · exact .refl _

end DeduplicateJoins

namespace Plugin

open Node

/-- The plugins that are shipped. -/
inductive Shipped where
  | withSchema (schema : String)
  | camelCase (o : CamelCase)
  | deduplicateJoins

namespace Shipped

def plugin : Shipped → Plugin
  | .withSchema schema => Plugin.withSchema schema
  | .camelCase o => Plugin.camelCase o
  | .deduplicateJoins => Plugin.deduplicateJoins

/-- What a plugin does to each node of a tree. -/
def step (root : Node) : Shipped → Node → List Node → Node
  | .withSchema schema =>
    WithSchema.qualify schema (WithSchema.tables root) (WithSchema.defined root)
  | .camelCase o => fun n _ => o.respell n
  | .deduplicateJoins => fun n _ => DeduplicateJoins.deduplicate n

theorem keepsFaults_step (root : Node) (p : Shipped) : KeepsFaults (p.step root) := by
  cases p with
  | withSchema schema => exact WithSchema.keepsFaults_qualify schema _ _
  | camelCase o => exact o.keepsFaults_respell
  | deduplicateJoins => exact DeduplicateJoins.keepsFaults_deduplicate

theorem outbound_plugin (p : Shipped) {n : Node} (h : n.wellFormed = true) :
    p.plugin.outbound n = .ok (n.rewritten (p.step n) []) := by
  have hok := transform_eq_ok (p.keepsFaults_step n).kind h
  cases p with
  | withSchema schema => exact hok
  | camelCase o => exact hok
  | deduplicateJoins => exact hok

end Shipped

/-- The plugins send every well-formed tree on, as one that fails alike. -/
theorem sendAll_shipped (ps : List Shipped) {n : Node} (h : n.wellFormed = true) :
    ∃ m, sendAll (M := Except Error) (ps.map Shipped.plugin) n = .ok m ∧ m.wellFormed = true ∧
      ∀ d, FailsAlike d n m := by
  induction ps generalizing n with
  | nil => exact ⟨n, rfl, h, fun d => .refl n⟩
  | cons p ps ih =>
    have hstep := p.keepsFaults_step n
    obtain ⟨m, hsend, hwell, halike⟩ := ih (wellFormed_rewritten hstep.kind hstep.wellFormed h [])
    refine ⟨m, ?_, hwell, fun d => (hstep.failsAlike_rewritten d h []).trans (halike d)⟩
    rw [List.map_cons, sendAll, p.outbound_plugin h]
    exact (if_pos (kind_rewritten hstep.kind n [])).trans hsend

/-- With shipped plugins a tree compiles as one that fails alike does without. -/
theorem compileWith_alike (ps : List Shipped) (d : Dialect) {n : Node} (h : n.wellFormed = true) :
    ∃ m, compileWith (M := Except Error) (ps.map Shipped.plugin) d n = m.compile d ∧
      m.wellFormed = true ∧ FailsAlike d n m := by
  obtain ⟨m, hsend, hwell, halike⟩ := sendAll_shipped ps h
  refine ⟨m, ?_, hwell, halike d⟩
  rw [compileWith, hsend]
  rfl

/-- With shipped plugins a tree fails to compile exactly where it fails without them, and for the
same: only what the dialect cannot express is an error, and two dialects can express everything. -/
theorem compileWith_shipped (ps : List Shipped) (d : Dialect) {n : Node}
    (h : n.wellFormed = true) :
    (∀ e, compileWith (M := Except Error) (ps.map Shipped.plugin) d n = .error e ↔
      n.compile d = .error e) ∧
      (∀ e, n.compile d = .error e →
        e = .unsupported d.name .returning ∨ e = .unsupported d.name .insertIgnore) ∧
      (d = .postgres ∨ d = .sqlite →
        (∃ c, compileWith (M := Except Error) (ps.map Shipped.plugin) d n = .ok c) ∧
          ∃ c, n.compile d = .ok c) := by
  obtain ⟨m, hwith, hwell, halike⟩ := compileWith_alike ps d h
  have hiff := halike.compile_eq_error_iff h hwell
  refine ⟨fun e => by rw [hwith, hiff], ?_, ?_⟩
  · intro e he
    obtain ⟨f, -, rfl⟩ := (compile_eq_error_iff d h e).mp he
    cases f with
    | returning => exact .inl rfl
    | insertIgnore => exact .inr rfl
  · intro hd
    have hreturning : d.supportsReturning = true := by
      obtain rfl | rfl := hd <;> rfl
    have hok : ∀ n : Node, n.wellFormed = true → ∃ c, n.compile d = .ok c := by
      intro n hn
      refine ⟨_, compile_of_no_refusal hn ?_⟩
      exact refusal?_eq_none hreturning (wellFormed_rewrite_adapt d hn)
    rw [hwith]
    exact ⟨hok m hwell, hok n h⟩

/-- A delete with one join written twice, which two dialects return rows from. -/
theorem compileWith_shipped_returning :
    let join : Node := ⟨.join .inner (.table none "userRoles") none⟩
    let n : Node := ⟨.deleteQuery {
      fromClause := ⟨.fromClause [.table none "users"]⟩, joins := [join, join]
      returning := some ⟨.returning [⟨.selection ⟨.selectAll⟩⟩]⟩ }⟩
    let ps : List Shipped := [.camelCase {}, .withSchema "app", .deduplicateJoins]
    n.wellFormed = true ∧
      compileWith (M := Except Error) (ps.map Shipped.plugin) .mysql n =
        .error (.unsupported "mysql" .returning) ∧
      ∃ c, compileWith (M := Except Error) (ps.map Shipped.plugin) .sqlite n = .ok c := by
  intro join n ps
  have hwell : n.wellFormed = true := by decide
  have hmysql : n.compile .mysql = .error (.unsupported "mysql" .returning) :=
    compile_of_refusal hwell rfl
  refine ⟨hwell, ?_, ?_⟩
  · exact ((compileWith_shipped ps .mysql hwell).1 _).mpr hmysql
  · exact ((compileWith_shipped ps .sqlite hwell).2.2 (.inr rfl)).1

end Plugin

end SqlTree
