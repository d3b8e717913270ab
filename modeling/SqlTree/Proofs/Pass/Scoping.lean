import SqlTree.Build.Clause
import SqlTree.Pass.WithSchema
import SqlTree.Proofs.Tree.Walking
import Mathlib.Data.List.Basic

/-!
# The tables that a statement names

Every table of a statement stands there for something, in the scope of with clauses and of aliases.
A with clause defines tables for the statement it belongs to, and a query of it sees the ones before
it, or all of them if the clause is recursive.
-/

namespace SqlTree

/-- What a table is named for. -/
inductive Role where
  /-- Rows come from it or go to it. -/
  | source
  /-- A column of it is meant. -/
  | qualifier
  /-- Its rows are locked. -/
  | lock
  | other
  deriving DecidableEq

/-- The names that are known at a place. -/
structure Surroundings where
  defined : List String := []
  aliases : List String := []

/-- A table that is named somewhere. -/
structure Mention where
  role : Role
  known : Surroundings
  schema : Option String
  name : String

namespace Role

/-- The role of what a name or parentheses are put around. -/
def inner : Role → Role
  | .source => .source
  | _ => .other

/-- The role of a child, by the field it stands in. -/
def child (role : Role) (parent : Kind) (field : String) : Role :=
  match parent, field with
  | .fromClause, _ => .source
  | .usingClause, _ => .source
  | .join, "table" => .source
  | .insertQuery, "into" => .source
  | .updateQuery, "table" => .source
  | .mergeQuery, "into" => .source
  | .aliased, "node" => role.inner
  | .parens, _ => role.inner
  | .reference, _ => .qualifier
  | .selectModifier, "of" => .lock
  | _, _ => .other

theorem child_eq_qualifier {role : Role} {parent : Kind} {field : String} :
    role.child parent field = .qualifier ↔ parent = .reference := by
  have hinner : role.inner ≠ .qualifier := by cases role <;> nofun
  unfold child
  split <;> simp_all

end Role

namespace Node

/-- The table that a join adds. -/
def joined? : Node → Option Node
  | ⟨.join _ table _⟩ => some table
  | _ => none

end Node

namespace Shape

variable {α β : Type}

def withClause? : Shape α → Option α
  | .selectQuery p => p.withClause
  | .insertQuery p => p.withClause
  | .updateQuery p => p.withClause
  | .deleteQuery p => p.withClause
  | .mergeQuery p => p.withClause
  | _ => none

/-- The aliases of the items and the joins of a select. -/
def aliases : Shape Node → List String
  | .selectQuery p =>
    (p.fromClause.toList.flatMap Node.items ++ p.joins.filterMap Node.joined?).filterMap
      Node.aliasName?
  | _ => []

/-- The queries of a with clause, each with the tables defined where it stands. -/
def placedQueries (defines : α → Option String) (around : Surroundings) :
    List String → List α → List (α × Role × Surroundings)
  | _, [] => []
  | seen, q :: qs =>
    (q, .other, { around with defined := around.defined ++ seen }) ::
      placedQueries defines around (seen ++ (defines q).toList) qs

/-- The children, each with what it is there for and the names known to it. -/
def placed (defines : α → Option String) (role : Role) (around inside : Surroundings) :
    Shape α → List (α × Role × Surroundings)
  | .withClause queries recursive =>
    placedQueries defines around (if recursive then queries.filterMap defines else []) queries
  | s => s.fields.flatMap fun x => x.2.toList.map fun a =>
      (a, role.child s.kind x.1, if x.1 = "with" then around else inside)

end Shape

/-- The scope of the clauses of a node. -/
def Surroundings.inside (around : Surroundings) (s : Shape Node) : Surroundings where
  defined := around.defined ++ s.withClause?.toList.flatMap Node.definedTables
  aliases := around.aliases ++ s.aliases

namespace Node

/-- The tables named at and below a node. -/
def mentionsIn : Node → Role → Surroundings → List Mention :=
  para fun n s role around =>
    n.tableName?.toList.map (fun t => ⟨role, around, t.1, t.2⟩) ++
      (s.placed (fun c => c.1.definedTable?) role around (around.inside n.shape)).flatMap
        fun x => x.1.2 x.2.1 x.2.2

/-- The tables that a statement names. -/
def mentions (n : Node) : List Mention := n.mentionsIn .other {}

end Node

namespace Shape

variable {α β : Type} {defines : α → Option String} {role : Role} {around inside : Surroundings}

theorem mem_children_of_withClause? {s : Shape α} {a : α} (h : s.withClause? = some a) :
    a ∈ s.children := by
  cases s with
  | selectQuery p => simp_all [withClause?, children, fields, Select.fields, Field.toList]
  | insertQuery p => simp_all [withClause?, children, fields, Insert.fields, Field.toList]
  | updateQuery p => simp_all [withClause?, children, fields, Update.fields, Field.toList]
  | deleteQuery p => simp_all [withClause?, children, fields, Delete.fields, Field.toList]
  | mergeQuery p => simp_all [withClause?, children, fields, Merge.fields, Field.toList]
  | _ => cases h

theorem placed_of_ne {s : Shape α} (h : s.kind ≠ .withClause) :
    s.placed defines role around inside = s.fields.flatMap fun x => x.2.toList.map fun a =>
      (a, role.child s.kind x.1, if x.1 = "with" then around else inside) := by
  cases s with
  | withClause queries recursive => exact absurd rfl h
  | _ => rfl

theorem map_fst_placedQueries (seen : List String) (qs : List α) :
    (placedQueries defines around seen qs).map Prod.fst = qs := by
  induction qs generalizing seen with
  | nil => rfl
  | cons q qs ih => exact congrArg (q :: ·) (ih _)

theorem map_fst_placed (s : Shape α) :
    (s.placed defines role around inside).map Prod.fst = s.children := by
  by_cases h : s.kind = .withClause
  · cases s with
    | withClause queries recursive =>
      rw [placed, map_fst_placedQueries]
      simp [children, fields, Field.toList, Field.flag]
    | _ => cases h
  · rw [placed_of_ne h, List.map_flatMap, children]
    simp [Function.comp_def]

theorem placedQueries_map (f : β → α) (seen : List String) (qs : List β) :
    placedQueries defines around seen (qs.map f) =
      (placedQueries (defines ∘ f) around seen qs).map fun x => (f x.1, x.2) := by
  induction qs generalizing seen with
  | nil => rfl
  | cons q qs ih => exact congrArg (_ :: ·) (ih _)

theorem placed_map (f : β → α) (s : Shape β) :
    (s.map f).placed defines role around inside =
      (s.placed (defines ∘ f) role around inside).map fun x => (f x.1, x.2) := by
  by_cases h : s.kind = .withClause
  · rw [map_eq_each]
    cases s with
    | withClause queries recursive =>
      rw [each, placed, placed, placedQueries_map, List.filterMap_map]
    | _ => cases h
  · rw [placed_of_ne h, placed_of_ne ((kind_map f s).trans_ne h), fields_map, kind_map]
    simp only [List.flatMap_map, Field.toList_map, List.map_map, List.map_flatMap]
    rfl

theorem placed_congr {defines' : α → Option String} {s : Shape α}
    (h : ∀ a ∈ s.children, defines a = defines' a) :
    s.placed defines role around inside = s.placed defines' role around inside := by
  by_cases hs : s.kind = .withClause
  · cases s with
    | withClause queries recursive =>
      have h : ∀ q ∈ queries, defines q = defines' q := by
        simpa [children, fields, Field.toList, Field.flag] using h
      have hqueries : ∀ seen, ∀ qs ⊆ queries, placedQueries defines around seen qs =
          placedQueries defines' around seen qs := by
        intro seen qs hqs
        induction qs generalizing seen with
        | nil => rfl
        | cons q qs ih =>
          obtain ⟨hq, hqs⟩ := List.cons_subset.mp hqs
          rw [placedQueries, placedQueries, h q hq, ih _ hqs]
      rw [placed, placed, List.filterMap_congr h, hqueries _ _ (List.Subset.refl _)]
    | _ => cases hs
  · rw [placed_of_ne hs, placed_of_ne hs]

theorem placedQueries_cases {seen : List String} {qs : List α} {x : α × Role × Surroundings}
    (h : x ∈ placedQueries defines around seen qs) :
    x.2.1 = .other ∧ x.2.2.defined ⊆ around.defined ++ (seen ++ qs.filterMap defines) := by
  induction qs generalizing seen with
  | nil => cases h
  | cons q qs ih =>
    have hall : seen ++ (q :: qs).filterMap defines =
        seen ++ (defines q).toList ++ qs.filterMap defines := by
      cases hq : defines q <;> simp [hq]
    rw [hall]
    obtain rfl | h := List.mem_cons.mp h
    · refine ⟨rfl, ?_⟩
      rw [List.append_assoc, ← List.append_assoc]
      exact List.subset_append_left _ _
    · exact ih h

/-- Whatever stands in a reference qualifies a column, and nothing else does. -/
theorem role_of_mem_placed {s : Shape α} {x : α × Role × Surroundings}
    (h : x ∈ s.placed defines role around inside) :
    x.2.1 = .qualifier ↔ s.kind = .reference := by
  by_cases hs : s.kind = .withClause
  · cases s with
    | withClause queries recursive =>
      rw [(placedQueries_cases h).1]
      exact iff_of_false nofun nofun
    | _ => cases hs
  · rw [placed_of_ne hs, List.mem_flatMap] at h
    obtain ⟨f, -, hx⟩ := h
    obtain ⟨a, -, rfl⟩ := List.mem_map.mp hx
    exact Role.child_eq_qualifier

/-- What is known to a child is known around the node, or defined by a with clause there. -/
theorem defined_of_mem_placed {s : Shape Node} {x : Node × Role × Surroundings}
    (h : x ∈ s.placed Node.definedTable? role around (around.inside s)) :
    x.2.2.defined ⊆ around.defined ++
      (Node.definedTables ⟨s⟩ ++ s.withClause?.toList.flatMap Node.definedTables) := by
  by_cases hs : s.kind = .withClause
  · cases s with
    | withClause queries recursive =>
      refine List.Subset.trans (placedQueries_cases h).2 fun y hy => ?_
      have hy : y ∈ around.defined ∨ y ∈ queries.filterMap Node.definedTable? := by
        cases recursive <;> simpa using hy
      exact List.mem_append.mpr (hy.imp id (List.mem_append_left _))
    | _ => cases hs
  · rw [placed_of_ne hs, List.mem_flatMap] at h
    obtain ⟨f, -, hx⟩ := h
    obtain ⟨a, -, rfl⟩ := List.mem_map.mp hx
    dsimp only
    split
    · exact List.subset_append_left _ _
    · exact fun y hy => by
        simp only [Surroundings.inside, List.mem_append] at hy ⊢
        tauto

end Shape

namespace Node

theorem mentionsIn_mk (s : Shape Node) (role : Role) (around : Surroundings) :
    mentionsIn ⟨s⟩ role around =
      (tableName? ⟨s⟩).toList.map (fun t => ⟨role, around, t.1, t.2⟩) ++
        (s.placed definedTable? role around (around.inside s)).flatMap
          fun x => x.1.mentionsIn x.2.1 x.2.2 := by
  rw [mentionsIn, para_mk, Shape.placed_map, List.flatMap_map]
  rfl

end Node

end SqlTree
