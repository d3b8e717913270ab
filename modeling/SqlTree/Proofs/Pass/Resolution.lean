import SqlTree.Proofs.Pass.Qualifying

/-!
# Qualified names and scopes

Whether a table is qualified is decided by the names of the whole statement, and not by the scopes
they stand in.  A source is qualified exactly if it has no schema and no with clause of the
statement defines its name; an alias before a column is left alone as long as no table of the
statement has its name (`WithSchema.apply_resolved`).
-/

namespace SqlTree

namespace Mention

/-- The name of a table without a schema that is not there for a column. -/
def bare (t : Mention) : List String :=
  if t.role ≠ .qualifier ∧ t.schema = none then [t.name] else []

theorem mem_bare {t : Mention} {x : String} :
    x ∈ t.bare ↔ t.role ≠ .qualifier ∧ t.schema = none ∧ t.name = x := by
  unfold bare
  split <;> simp_all [eq_comm]

end Mention

namespace WithSchema

open Node

/-- Whether a node stands in a reference. -/
def inReference (ancestors : List Node) : Prop :=
  ∃ m, ancestors.getLast? = some m ∧ m.kind = .reference

theorem tableAt_of_inReference {n : Node} {ancestors : List Node} (h : inReference ancestors) :
    tableAt n ancestors = [] := by
  obtain ⟨⟨s⟩, hlast, hs⟩ := h
  cases s with
  | reference table column =>
    rw [tableAt, hlast]
    cases n.tableName? <;> rfl
  | _ => cases hs

theorem tableAt_of_not_inReference {n : Node} {ancestors : List Node}
    (h : ¬ inReference ancestors) :
    tableAt n ancestors =
      n.tableName?.toList.flatMap fun t => if t.1 = none then [t.2] else [] := by
  unfold tableAt
  cases n.tableName? with
  | none => rfl
  | some t =>
    obtain ⟨o, x⟩ := t
    cases hlast : ancestors.getLast? with
    | none => cases o <;> rfl
    | some m =>
      obtain ⟨s⟩ := m
      cases s with
      | reference table column => exact absurd ⟨_, hlast, rfl⟩ h
      | _ => cases o <;> rfl

/-- The names collected over a walk are those of the tables that are named. -/
theorem flatMap_bare {n : Node} {role : Role} (around : Surroundings) {ancestors : List Node}
    (hrole : role = .qualifier ↔ inReference ancestors) :
    (n.mentionsIn role around).flatMap Mention.bare =
      (n.visitBelow ancestors).flatMap fun v => tableAt v.1 v.2 := by
  induction n using childrenInduction generalizing role around ancestors with
  | h s ih =>
    have hhere : ((tableName? ⟨s⟩).toList.map fun t =>
        (⟨role, around, t.1, t.2⟩ : Mention)).flatMap Mention.bare = tableAt ⟨s⟩ ancestors := by
      rw [List.flatMap_map]
      by_cases h : inReference ancestors
      · rw [tableAt_of_inReference h]
        simp [Mention.bare, hrole.mpr h]
      · have hne : role ≠ .qualifier := fun hr => h (hrole.mp hr)
        rw [tableAt_of_not_inReference h]
        simp [Mention.bare, hne]
    have hchildren : s.children =
        (s.placed definedTable? role around (around.inside s)).map Prod.fst :=
      (Shape.map_fst_placed s).symm
    rw [mentionsIn_mk, visitBelow_mk, List.flatMap_append, hhere, List.flatMap_cons,
      List.flatMap_assoc, List.flatMap_assoc, hchildren, List.flatMap_map]
    refine congrArg _ (List.flatMap_congr fun x hx => ih x.1 ?_ _ ?_)
    · rw [← Shape.map_fst_placed]
      exact List.mem_map_of_mem hx
    · rw [Shape.role_of_mem_placed hx]
      simp [inReference, kind, shape]

/-- What is known to be defined where a table stands is defined somewhere in the statement. -/
theorem defined_subset {n : Node} {role : Role} {around : Surroundings} (ancestors : List Node)
    {t : Mention} (ht : t ∈ n.mentionsIn role around) :
    t.known.defined ⊆
      around.defined ++ (n.visitBelow ancestors).flatMap fun v => v.1.definedTables := by
  induction n using childrenInduction generalizing role around ancestors with
  | h s ih =>
    rw [mentionsIn_mk, List.mem_append, List.mem_map, List.mem_flatMap] at ht
    obtain ⟨_, -, rfl⟩ | ⟨x, hx, ht⟩ := ht
    · exact List.subset_append_left _ _
    · have hc : x.1 ∈ s.children := by
        rw [← Shape.map_fst_placed]
        exact List.mem_map_of_mem hx
      intro y hy
      rw [List.mem_append, List.mem_flatMap]
      obtain hy | hy := List.mem_append.mp (ih x.1 hc (ancestors ++ [⟨s⟩]) ht hy)
      · obtain hy | hy := List.mem_append.mp (Shape.defined_of_mem_placed hx hy)
        · exact .inl hy
        obtain hy | hy := List.mem_append.mp hy
        · exact .inr ⟨_, self_mem_visitBelow _ _, hy⟩
        · obtain ⟨w, hw, hy⟩ := List.mem_flatMap.mp hy
          have hw := Shape.mem_children_of_withClause? (Option.mem_toList.mp hw)
          exact .inr ⟨_, mem_visitBelow_of_child hw (self_mem_visitBelow _ _), hy⟩
      · obtain ⟨v, hv, hy⟩ := List.mem_flatMap.mp hy
        exact .inr ⟨v, mem_visitBelow_of_child hc hv, hy⟩

end WithSchema

namespace Node

/-- Whether a with clause of the statement defines a table of that name. -/
def Defines (n : Node) (x : String) : Prop := ∃ v ∈ n.visit, x ∈ v.1.definedTables

/-- Whether the statement names a table without a schema so, other than for its columns. -/
def Names (n : Node) (x : String) : Prop :=
  ∃ t ∈ n.mentions, t.role ≠ .qualifier ∧ t.schema = none ∧ t.name = x

end Node

namespace WithSchema

open Node

theorem mem_defined {n : Node} {x : String} : x ∈ defined n ↔ n.Defines x := List.mem_flatMap

theorem mem_tables {n : Node} {x : String} : x ∈ tables n ↔ n.Names x := by
  have hbare : n.mentions.flatMap Mention.bare = tables n :=
    flatMap_bare {} (iff_of_false nofun (by simp [inReference]))
  rw [← hbare, List.mem_flatMap]
  simp only [Mention.mem_bare, Names]

theorem defines_of_known {n : Node} {t : Mention} (ht : t ∈ n.mentions) {x : String}
    (hx : x ∈ t.known.defined) : n.Defines x := by
  obtain hx | hx := List.mem_append.mp (defined_subset [] ht hx)
  · cases hx
  · exact List.mem_flatMap.mp hx

/-- How the tables of a statement are resolved with a schema: by the names in all of it. -/
structure Resolved (schema : String) (n : Node) (t t' : Mention) : Prop where
  place : t'.role = t.role ∧ t'.known = t.known ∧ t'.name = t.name
  qualified : t.role = .source → t.schema = none → ¬ n.Defines t.name → t'.schema = some schema
  unqualified : t.role = .source → t.schema ≠ none ∨ n.Defines t.name → t'.schema = t.schema
  known : t.role = .source → t.name ∈ t.known.defined → t'.schema = t.schema
  column : t.role = .qualifier → ¬ n.Names t.name ∨ n.Defines t.name → t'.schema = t.schema
  columnOf : t.role = .qualifier → t.schema = none →
    (∃ u ∈ n.mentions, u.role = .source ∧ u.schema = none ∧ u.name = t.name) →
      ¬ n.Defines t.name → t'.schema = some schema

/-- A source is qualified exactly if it has no schema and no with clause of the statement defines
it, and so never where one that is known does.  A qualifier of a column, be it an alias or not, is
left alone if no table of the statement has its name. -/
theorem apply_resolved (schema : String) {n : Node} (h : n.wellFormed = true) :
    ∃ m, apply schema n = .ok m ∧
      List.Forall₂ (Resolved schema n) n.mentions m.mentions := by
  refine ⟨_, transform_eq_ok (kind_qualify schema _ _) h, ?_⟩
  rw [mentions, mentions, mentionsIn_qualified _ _ _ h, List.forall₂_map_right_iff,
    List.forall₂_same]
  intro t ht
  have hqualify : t.schema = none → n.Names t.name → ¬ n.Defines t.name →
      decided schema (tables n) (defined n) t.schema t.name = some schema :=
    fun ho hnames hdefines => if_pos ⟨ho, mem_tables.mpr hnames, mt mem_defined.mp hdefines⟩
  have hleave : t.schema ≠ none ∨ ¬ n.Names t.name ∨ n.Defines t.name →
      decided schema (tables n) (defined n) t.schema t.name = t.schema := by
    intro h
    refine if_neg fun ⟨ho, htables, hdefined⟩ => ?_
    obtain h | h | h := h
    · exact h ho
    · exact h (mem_tables.mp htables)
    · exact hdefined (mem_defined.mpr h)
  exact {
    place := ⟨rfl, rfl, rfl⟩
    qualified := fun hr ho => hqualify ho ⟨t, ht, by rw [hr]; nofun, ho, rfl⟩
    unqualified := fun _ h => hleave (h.imp_right .inr)
    known := fun _ h => hleave (.inr (.inr (defines_of_known ht h)))
    column := fun _ h => hleave (.inr h)
    columnOf := fun _ ho ⟨u, hu, hr, hschema, hname⟩ =>
      hqualify ho ⟨u, hu, by rw [hr]; nofun, hschema, hname⟩ }

/-- An alias of one query that is a table of another. -/
theorem apply_resolved_alias :
    let n : Node := ⟨.selectQuery {
      selections := [⟨.selection ⟨.reference (some (.table none "p")) (.column "id")⟩⟩]
      fromClause := some ⟨.fromClause [.named (.table none "person") "p"]⟩
      whereClause := some ⟨.whereClause ⟨.unaryOperation ⟨.operator .hasRows⟩ ⟨.selectQuery {
        selections := [⟨.selection ⟨.selectAll⟩⟩]
        fromClause := some ⟨.fromClause [.table none "p"]⟩ }⟩⟩⟩ }⟩
    n.wellFormed = true ∧ ∃ m, apply "app" n = .ok m ∧
      List.Forall₂ (Resolved "app" n) n.mentions m.mentions := by
  intro n
  have h : n.wellFormed = true := rfl
  exact ⟨h, apply_resolved "app" h⟩

/-- How scopes would have the tables of a statement resolved. -/
structure Scoped (schema : String) (t t' : Mention) : Prop where
  source : t.role = .source → t'.schema =
    if t.schema = none ∧ t.name ∉ t.known.defined then some schema else t.schema
  column : t.role = .qualifier ∨ t.role = .lock → t.name ∈ t.known.aliases → t'.schema = t.schema

/-- A table is not qualified if a query inside the statement defines another one of its name. -/
theorem not_scoped_definedBelow :
    let star : List Node := [⟨.selection ⟨.selectAll⟩⟩]
    let fromTable (x : String) : Node := ⟨.fromClause [.table none x]⟩
    let n : Node := ⟨.selectQuery {
      selections := star
      fromClause := some (fromTable "a")
      whereClause := some ⟨.whereClause ⟨.unaryOperation ⟨.operator .hasRows⟩ ⟨.selectQuery {
        selections := star
        fromClause := some (fromTable "a")
        withClause := some ⟨.withClause [⟨.commonTableExpression
          ⟨.commonTableExpressionName (.table none "a") []⟩ none
          ⟨.selectQuery { selections := star, fromClause := some (fromTable "b") }⟩⟩] false⟩ }⟩⟩⟩ }⟩
    n.wellFormed = true ∧ ∃ m, apply "app" n = .ok m ∧
      ¬ List.Forall₂ (Scoped "app") n.mentions m.mentions := by
  refine ⟨rfl, _, rfl, fun h => ?_⟩
  have ht := (List.forall₂_cons.mp h).1.source rfl
  cases ht

end WithSchema

end SqlTree
