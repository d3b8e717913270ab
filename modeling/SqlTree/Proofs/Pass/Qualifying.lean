import SqlTree.Proofs.Pass.Scoping
import SqlTree.Proofs.Pass.Shipped
import Mathlib.Data.List.Forall2

/-!
# Qualifying tables

One schema is put in front of the tables of a statement by two lists of names, those of its
unqualified tables and those its with clauses define (`WithSchema.tables`, `WithSchema.defined`).
Nothing else of the statement changes, so every table it names stays in its place
(`WithSchema.mentionsIn_qualified`).
-/

namespace SqlTree

namespace Node

theorem exists_schemable {n : Node} (h : n.wellFormed = true)
    (hk : n.kind = .schemableIdentifier) : ∃ o x, n = .schemable o x := by
  have hidentifier : ∀ m : Node, m.kind = .identifier → ∃ x, m = .identifier x := by
    intro m hm
    obtain ⟨s⟩ := m
    cases s with
    | identifier x => exact ⟨x, rfl⟩
    | _ => cases hm
  obtain ⟨s⟩ := n
  cases s with
  | schemableIdentifier a b =>
    have hb := wellFormed_mk_iff.mp h (.only .identifier, b) (by simp [Shape.slotted, Shape.fields])
    obtain ⟨x, rfl⟩ := hidentifier b (eq_of_beq hb.1).symm
    cases a with
    | none => exact ⟨none, x, rfl⟩
    | some a =>
      have ha := wellFormed_mk_iff.mp h (.only .identifier, a)
        (by simp [Shape.slotted, Shape.fields])
      obtain ⟨y, rfl⟩ := hidentifier a (eq_of_beq ha.1).symm
      exact ⟨some y, x, rfl⟩
  | _ => cases hk

theorem exists_table {n : Node} (h : n.wellFormed = true) (hk : n.kind = .table) :
    ∃ o x, n = .table o x := by
  obtain ⟨s⟩ := n
  cases s with
  | table t =>
    have ht := wellFormed_mk_iff.mp h (.only .schemableIdentifier, t)
      (by simp [Shape.slotted, Shape.fields])
    obtain ⟨o, x, rfl⟩ := exists_schemable ht.2 (eq_of_beq ht.1).symm
    exact ⟨o, x, rfl⟩
  | _ => cases hk

theorem tableName?_of_ne {n : Node} (h : n.kind ≠ .table) : n.tableName? = none := by
  obtain ⟨s⟩ := n
  cases s with
  | table t => exact absurd rfl h
  | _ => rfl

theorem identifierName?_of_ne {n : Node} (h : n.kind ≠ .identifier) :
    n.identifierName? = none := by
  obtain ⟨s⟩ := n
  cases s with
  | identifier x => exact absurd rfl h
  | _ => rfl

theorem aliasName?_of_ne {n : Node} (h : n.kind ≠ .aliased) : n.aliasName? = none := by
  obtain ⟨s⟩ := n
  cases s with
  | aliased n name => exact absurd rfl h
  | _ => rfl

theorem definedTable?_of_ne {n : Node} (h : n.kind ≠ .commonTableExpression) :
    n.definedTable? = none := by
  obtain ⟨s⟩ := n
  cases s with
  | commonTableExpression a b c => exact absurd rfl h
  | _ => rfl

theorem definedTables_of_ne {n : Node} (h : n.kind ≠ .withClause) : n.definedTables = [] := by
  obtain ⟨s⟩ := n
  cases s with
  | withClause es r => exact absurd rfl h
  | _ => rfl

theorem items_map (g : Node → Node) (s : Shape Node) :
    items ⟨s.map g⟩ = (items ⟨s⟩).map g := by
  rw [Shape.map_eq_each]
  cases s <;> rfl

theorem items_of_schemable {n : Node} (h : n.kind = .schemableIdentifier) : n.items = [] := by
  obtain ⟨s⟩ := n
  cases s with
  | schemableIdentifier a b => rfl
  | _ => cases h

theorem joined?_of_schemable {n : Node} (h : n.kind = .schemableIdentifier) :
    n.joined? = none := by
  obtain ⟨s⟩ := n
  cases s with
  | schemableIdentifier a b => rfl
  | _ => cases h

theorem joined?_map (g : Node → Node) (s : Shape Node) :
    joined? ⟨s.map g⟩ = (joined? ⟨s⟩).map g := by
  rw [Shape.map_eq_each]
  cases s <;> rfl

end Node

namespace WithSchema

open Node

variable (schema : String) (T D : List String)

theorem kind_qualify (n : Node) (ancestors : List Node) :
    (qualify schema T D n ancestors).kind = n.kind :=
  (keepsFaults_qualify schema T D).kind n ancestors

theorem qualify_of_ne {n : Node} (h : n.kind ≠ .schemableIdentifier) (ancestors : List Node) :
    qualify schema T D n ancestors = n := by
  obtain hq | ⟨name, rfl, -⟩ := qualify_cases schema T D n ancestors
  · exact hq
  · exact absurd rfl h

/-- The schema of a table, once it is decided. -/
def decided (o : Option String) (x : String) : Option String :=
  if o = none ∧ x ∈ T ∧ x ∉ D then some schema else o

/-- A statement with its tables qualified by the two lists. -/
abbrev qualified (n : Node) (ancestors : List Node) : Node :=
  n.rewritten (qualify schema T D) ancestors

theorem qualified_of_ne {s : Shape Node} (h : s.kind ≠ .schemableIdentifier)
    (ancestors : List Node) :
    qualified schema T D ⟨s⟩ ancestors =
      ⟨s.map fun c => qualified schema T D c (ancestors ++ [⟨s⟩])⟩ := by
  rw [qualified, rewritten_mk]
  refine qualify_of_ne schema T D ?_ _
  exact (Shape.kind_map _ s).trans_ne h

theorem kind_qualified (n : Node) (ancestors : List Node) :
    (qualified schema T D n ancestors).kind = n.kind :=
  kind_rewritten (kind_qualify schema T D) n ancestors

/-- The schema of a name that may have one, below given ancestors. -/
def given (ancestors : List Node) (o : Option String) (x : String) : Option String :=
  if o = none ∧ x ∉ D ∧ (x ∈ T ∨ namesObject ancestors = true) then some schema else o

theorem qualified_schemable (o : Option String) (x : String) (ancestors : List Node) :
    qualified schema T D (.schemable o x) ancestors =
      .schemable (given schema T D ancestors o x) x := by
  cases o with
  | some y => rfl
  | none =>
    show qualify schema T D (.schemable none x) ancestors = _
    simp only [qualify, schemable, Option.map_none, identifierName?_identifier, given,
      List.contains_iff_mem, Bool.or_eq_true]
    by_cases hD : x ∈ D
    · simp [hD]
    · by_cases hT : x ∈ T ∨ namesObject ancestors = true <;> simp [hD, hT]

theorem qualified_table (o : Option String) (x : String) (ancestors : List Node) :
    qualified schema T D (.table o x) ancestors = .table (decided schema T D o x) x := by
  have hobject : namesObject (ancestors ++ [.table o x]) = false := by
    simp [namesObject, table]
  have hdecided : given schema T D (ancestors ++ [.table o x]) o x = decided schema T D o x := by
    simp only [given, decided, hobject, Bool.false_eq_true, or_false, and_comm]
  rw [table, qualified_of_ne schema T D (by simp [Shape.kind]), Shape.map_eq_each]
  show mk (.table (qualified schema T D (.schemable o x) (ancestors ++ [.table o x]))) = _
  rw [qualified_schemable, hdecided, table]

theorem identifierName?_qualified (n : Node) (ancestors : List Node) :
    (qualified schema T D n ancestors).identifierName? = n.identifierName? := by
  by_cases hk : n.kind = .identifier
  · obtain ⟨s⟩ := n
    cases s with
    | identifier x => rfl
    | _ => cases hk
  · rw [identifierName?_of_ne hk, identifierName?_of_ne]
    rwa [kind_qualified]

theorem aliasName?_qualified (n : Node) (ancestors : List Node) :
    (qualified schema T D n ancestors).aliasName? = n.aliasName? := by
  by_cases hk : n.kind = .aliased
  · obtain ⟨s⟩ := n
    cases s with
    | aliased n name =>
      rw [qualified_of_ne schema T D (by simp [Shape.kind]), Shape.map_eq_each]
      exact identifierName?_qualified schema T D name _
    | _ => cases hk
  · rw [aliasName?_of_ne hk, aliasName?_of_ne]
    rwa [kind_qualified]

theorem definedTable?_qualified {n : Node} (h : n.wellFormed = true) (ancestors : List Node) :
    (qualified schema T D n ancestors).definedTable? = n.definedTable? := by
  by_cases hk : n.kind = .commonTableExpression
  · obtain ⟨s⟩ := n
    cases s with
    | commonTableExpression name materialized e =>
      obtain ⟨hname, hw⟩ := wellFormed_mk_iff.mp h (.only .commonTableExpressionName, name)
        (by simp [Shape.slotted, Shape.fields])
      obtain ⟨s⟩ := name
      cases s with
      | commonTableExpressionName t columns =>
        obtain ⟨ht, hw⟩ := wellFormed_mk_iff.mp hw (.only .table, t)
          (by simp [Shape.slotted, Shape.fields])
        obtain ⟨o, x, rfl⟩ := exists_table hw (eq_of_beq ht).symm
        rw [qualified_of_ne schema T D (by simp [Shape.kind]), Shape.map_eq_each, Shape.each,
          qualified_of_ne schema T D (by simp [Shape.kind]), Shape.map_eq_each, Shape.each,
          qualified_table]
        simp [definedTable?]
      | _ => cases hname
    | _ => cases hk
  · rw [definedTable?_of_ne hk, definedTable?_of_ne]
    rwa [kind_qualified]

theorem definedTables_qualified {n : Node} (h : n.wellFormed = true) (ancestors : List Node) :
    (qualified schema T D n ancestors).definedTables = n.definedTables := by
  by_cases hk : n.kind = .withClause
  · obtain ⟨s⟩ := n
    cases s with
    | withClause es recursive =>
      rw [qualified_of_ne schema T D (by simp [Shape.kind]), Shape.map_eq_each]
      show (es.map _).filterMap definedTable? = es.filterMap definedTable?
      rw [List.filterMap_map]
      refine List.filterMap_congr fun e he => definedTable?_qualified schema T D ?_ _
      exact wellFormed_of_mem_children h (by simp [Shape.children, Shape.fields, Field.toList, he])
    | _ => cases hk
  · rw [definedTables_of_ne hk, definedTables_of_ne]
    rwa [kind_qualified]

theorem aliases_items_qualified (n : Node) (ancestors : List Node) :
    (qualified schema T D n ancestors).items.filterMap aliasName? =
      n.items.filterMap aliasName? := by
  by_cases hk : n.kind = .schemableIdentifier
  · rw [items_of_schemable hk, items_of_schemable]
    rwa [kind_qualified]
  · obtain ⟨s⟩ := n
    rw [qualified_of_ne schema T D (s := s) hk, items_map, List.filterMap_map]
    exact List.filterMap_congr fun c _ => aliasName?_qualified schema T D c _

theorem alias_joined?_qualified (n : Node) (ancestors : List Node) :
    (qualified schema T D n ancestors).joined?.bind aliasName? = n.joined?.bind aliasName? := by
  by_cases hk : n.kind = .schemableIdentifier
  · rw [joined?_of_schemable hk, joined?_of_schemable]
    rwa [kind_qualified]
  · obtain ⟨s⟩ := n
    rw [qualified_of_ne schema T D (s := s) hk, joined?_map]
    cases joined? ⟨s⟩ with
    | none => rfl
    | some t => exact aliasName?_qualified schema T D t _

theorem aliases_map_qualified (s : Shape Node) (ancestors : List Node) :
    (s.map fun c => qualified schema T D c ancestors).aliases = s.aliases := by
  rw [Shape.map_eq_each]
  cases s with
  | selectQuery p =>
    have hitems : ((p.fromClause.map fun c => qualified schema T D c ancestors).toList.flatMap
        items).filterMap aliasName? = (p.fromClause.toList.flatMap items).filterMap aliasName? := by
      cases p.fromClause with
      | none => rfl
      | some c => simpa using aliases_items_qualified schema T D c ancestors
    simp only [Shape.aliases, Shape.each, Select.each, List.filterMap_append, hitems,
      List.filterMap_map, List.filterMap_filterMap]
    congr 1
    exact List.filterMap_congr fun c _ => alias_joined?_qualified schema T D c ancestors
  | _ => rfl

theorem withClause?_map (g : Node → Node) (s : Shape Node) :
    (s.map g).withClause? = s.withClause?.map g := by
  rw [Shape.map_eq_each]
  cases s <;> rfl

theorem inside_map_qualified {s : Shape Node} (h : wellFormed ⟨s⟩ = true)
    (around : Surroundings) (ancestors : List Node) :
    around.inside (s.map fun c => qualified schema T D c ancestors) = around.inside s := by
  have hdefined : (s.map fun c => qualified schema T D c ancestors).withClause?.toList.flatMap
      definedTables = s.withClause?.toList.flatMap definedTables := by
    rw [withClause?_map]
    cases hw : s.withClause? with
    | none => rfl
    | some w =>
      have hw := wellFormed_of_mem_children h (Shape.mem_children_of_withClause? hw)
      simpa using definedTables_qualified schema T D hw ancestors
  rw [Surroundings.inside, Surroundings.inside, hdefined, aliases_map_qualified]

theorem wellFormed_qualified {n : Node} (h : n.wellFormed = true) (ancestors : List Node) :
    (qualified schema T D n ancestors).wellFormed = true :=
  wellFormed_rewritten (kind_qualify schema T D)
    (keepsFaults_qualify schema T D).wellFormed h ancestors

theorem mentionsIn_of_schemable {n : Node} (h : n.wellFormed = true)
    (hk : n.kind = .schemableIdentifier) (role : Role) (around : Surroundings) :
    n.mentionsIn role around = [] := by
  obtain ⟨o, x, rfl⟩ := exists_schemable h hk
  cases o <;> rfl

theorem mentionsIn_table (o : Option String) (x : String) (role : Role)
    (around : Surroundings) : (table o x).mentionsIn role around = [⟨role, around, o, x⟩] := by
  cases o <;> rfl

/-- Every table stays in its place and gets the schema that is decided for it. -/
theorem mentionsIn_qualified {n : Node} (h : n.wellFormed = true) (role : Role)
    (around : Surroundings) (ancestors : List Node) :
    (qualified schema T D n ancestors).mentionsIn role around =
      (n.mentionsIn role around).map fun t =>
        { t with schema := decided schema T D t.schema t.name } := by
  induction n using childrenInduction generalizing role around ancestors with
  | h s ih =>
    by_cases hs : s.kind = .schemableIdentifier
    · rw [mentionsIn_of_schemable h hs, mentionsIn_of_schemable (wellFormed_qualified _ _ _ h _)
        ((kind_qualified schema T D _ _).trans hs)]
      rfl
    by_cases ht : s.kind = .table
    · obtain ⟨o, x, ht⟩ := exists_table h ht
      rw [ht, qualified_table, mentionsIn_table, mentionsIn_table]
      rfl
    let g := fun c => qualified schema T D c (ancestors ++ [⟨s⟩])
    have hg : (s.map g).kind ≠ .table := (Shape.kind_map g s).trans_ne ht
    have hwf : ∀ c ∈ s.children, c.wellFormed = true :=
      fun c hc => wellFormed_of_mem_children h hc
    have hplaced : s.placed (definedTable? ∘ g) role around (around.inside s) =
        s.placed definedTable? role around (around.inside s) :=
      Shape.placed_congr fun c hc => definedTable?_qualified schema T D (hwf c hc) _
    rw [qualified_of_ne schema T D hs, mentionsIn_mk, mentionsIn_mk,
      tableName?_of_ne (n := ⟨s.map g⟩) hg, tableName?_of_ne (n := ⟨s⟩) ht, Shape.placed_map,
      inside_map_qualified schema T D h, hplaced, List.flatMap_map, List.map_append,
      List.map_flatMap]
    refine congrArg _ (List.flatMap_congr fun x hx => ?_)
    have hc : x.1 ∈ s.children := by
      rw [← Shape.map_fst_placed]
      exact List.mem_map_of_mem hx
    exact ih x.1 hc (hwf x.1 hc) _ _ _

end WithSchema

end SqlTree
