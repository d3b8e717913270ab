import SqlTree.Database.Handle
import SqlTree.Proofs.Pass.Resolution
import SqlTree.Proofs.Tree.Rebuilding

/-!
# One schema after another

A statement that was given a schema has no place left for another one: whatever is still without a
schema is defined by a with clause, which the second reading finds as the first one did
(`WithSchema.qualified_qualified`).  So the schema that reaches a statement first stays, and that is
the one a database was given last (`WithSchema.apply_settles`).
-/

namespace SqlTree

namespace WithSchema

open Node

/-- A tree with `schema` in places for one that were empty, and with all else as it was. -/
inductive Filled (schema : String) : Node → Node → Prop
  | here (name : Node) : Filled schema ⟨.schemableIdentifier none name⟩
      ⟨.schemableIdentifier (some (.identifier schema)) name⟩
  | within {s t : Shape Node} {g : Node → Node} (h : ∀ c ∈ s.children, Filled schema c (g c))
      (ht : s.Replaced g t) : Filled schema ⟨s⟩ ⟨t⟩

theorem Filled.refl (schema : String) (n : Node) : Filled schema n n := by
  induction n using childrenInduction with
  | h s ih => exact .within ih (Shape.replaced_iff.mpr s.map_id.symm)

/-- Qualifying a statement fills in schemas and does nothing else. -/
theorem filled_qualified (schema : String) (T D : List String) {n : Node}
    (h : n.wellFormed = true) (ancestors : List Node) :
    Filled schema n (qualified schema T D n ancestors) := by
  induction n using childrenInduction generalizing ancestors with
  | h s ih =>
    by_cases hs : s.kind = .schemableIdentifier
    · obtain ⟨o, x, hs⟩ := exists_schemable h hs
      rw [hs, qualified_schemable, given]
      split
      · rename_i hgiven
        rw [hgiven.1]
        exact .here _
      · exact .refl _ _
    · rw [qualified_of_ne schema T D hs]
      refine .within (fun c hc => ?_) (Shape.replaced_iff.mpr rfl)
      exact ih c hc (wellFormed_of_mem_children h hc) _

theorem namesObject_concat (s : Shape Node) (g : Node → Node) (as bs : List Node) :
    namesObject (as ++ [⟨s.map g⟩]) = namesObject (bs ++ [⟨s⟩]) := by
  rw [namesObject, namesObject, List.getLast?_concat, List.getLast?_concat, Shape.map_eq_each]
  cases s <;> rfl

/-- What one reading leaves without a schema, another one does too, if all tables that it finds are
defined. -/
theorem given_given {a b : String} {T D T' D' : List String} (hD : D ⊆ D') (hT : T' ⊆ D')
    {as bs : List Node} (has : namesObject bs = namesObject as) (o : Option String) (x : String) :
    given b T' D' bs (given a T D as o x) x = given a T D as o x := by
  refine if_neg ?_
  rintro ⟨hnone, hx, hplace⟩
  have hobject : namesObject as = true := has ▸ hplace.resolve_left fun h => hx (hT h)
  have ho : o = none := by
    unfold given at hnone
    split at hnone
    · cases hnone
    · exact hnone
  rw [given, if_pos ⟨ho, fun h => hx (hD h), .inr hobject⟩] at hnone
  cases hnone

/-- A statement that was qualified is not qualified again. -/
theorem qualified_qualified {a b : String} {T D T' D' : List String} (hD : D ⊆ D') (hT : T' ⊆ D')
    {n : Node} (h : n.wellFormed = true) {as bs : List Node}
    (has : namesObject bs = namesObject as) :
    qualified b T' D' (qualified a T D n as) bs = qualified a T D n as := by
  induction n using childrenInduction generalizing as bs with
  | h s ih =>
    by_cases hs : s.kind = .schemableIdentifier
    · obtain ⟨o, x, hs⟩ := exists_schemable h hs
      rw [hs, qualified_schemable, qualified_schemable, given_given hD hT has]
    · rw [qualified_of_ne a T D hs, qualified_of_ne b T' D' ((Shape.kind_map _ s).trans_ne hs),
        Shape.map_map]
      refine congrArg Node.mk (s.map_congr fun c hc => ?_)
      exact ih c hc (wellFormed_of_mem_children h hc) (namesObject_concat s _ bs as)

/-- The with clauses of a statement define the same tables after it was qualified. -/
theorem definedTables_visitBelow_qualified (schema : String) (T D : List String) {n : Node}
    (h : n.wellFormed = true) (ancestors as bs : List Node) :
    ((qualified schema T D n ancestors).visitBelow as).flatMap (fun v => v.1.definedTables) =
      (n.visitBelow bs).flatMap fun v => v.1.definedTables := by
  induction n using childrenInduction generalizing ancestors as bs with
  | h s ih =>
    by_cases hs : s.kind = .schemableIdentifier
    · obtain ⟨o, x, hs⟩ := exists_schemable h hs
      have hnone : ∀ (o : Option String) (as : List Node),
          ((schemable o x).visitBelow as).flatMap (fun v => v.1.definedTables) = [] := by
        intro o as
        cases o <;> rfl
      rw [hs, qualified_schemable, hnone, hnone]
    · have hhere := definedTables_qualified schema T D h ancestors
      rw [qualified_of_ne schema T D hs] at hhere ⊢
      rw [visitBelow_mk, visitBelow_mk, List.flatMap_cons, List.flatMap_cons, hhere,
        Shape.children_map, List.flatMap_map, List.flatMap_assoc, List.flatMap_assoc]
      refine congrArg _ (List.flatMap_congr fun c hc => ?_)
      exact ih c hc (wellFormed_of_mem_children h hc) _ _ _

section Statement

variable (a : String) {n : Node} (h : n.wellFormed = true)
include h

theorem apply_eq_ok : apply a n = .ok (qualified a (tables n) (defined n) n []) :=
  transform_eq_ok (kind_qualify a _ _) h

theorem defined_qualified (T D : List String) :
    defined (qualified a T D n []) = defined n :=
  definedTables_visitBelow_qualified a T D h [] [] []

/-- The tables that are still named without a schema are those that the statement defines. -/
theorem names_qualified (x : String) :
    (qualified a (tables n) (defined n) n []).Names x ↔ n.Names x ∧ n.Defines x := by
  have hdecided : ∀ t ∈ n.mentions, t.role ≠ .qualifier →
      (decided a (tables n) (defined n) t.schema t.name = none ↔
        t.schema = none ∧ n.Defines t.name) := by
    intro t ht hrole
    unfold decided
    split
    · rename_i hgiven
      exact iff_of_false nofun fun hd => hgiven.2.2 (mem_defined.mpr hd.2)
    · rename_i hkept
      refine ⟨fun ho => ⟨ho, ?_⟩, And.left⟩
      by_contra hdefines
      exact hkept ⟨ho, mem_tables.mpr ⟨t, ht, hrole, ho, rfl⟩, mt mem_defined.mp hdefines⟩
  rw [Names, mentions, mentionsIn_qualified _ _ _ h, Names]
  constructor
  · rintro ⟨_, hmem, hrole, ho, hx⟩
    obtain ⟨t, ht, rfl⟩ := List.mem_map.mp hmem
    obtain ⟨ho, hdefines⟩ := (hdecided t ht hrole).mp ho
    exact ⟨⟨t, ht, hrole, ho, hx⟩, hx ▸ hdefines⟩
  · rintro ⟨⟨t, ht, hrole, ho, hx⟩, hdefines⟩
    exact ⟨_, List.mem_map_of_mem ht, hrole, (hdecided t ht hrole).mpr ⟨ho, hx ▸ hdefines⟩, hx⟩

/-- A statement that was given a schema is left alone by every other one. -/
theorem apply_qualified (b : String) :
    apply b (qualified a (tables n) (defined n) n []) =
      .ok (qualified a (tables n) (defined n) n []) := by
  have hw := wellFormed_qualified a (tables n) (defined n) h []
  have hdefined := defined_qualified a h (tables n) (defined n)
  have hsub : tables (qualified a (tables n) (defined n) n []) ⊆ defined n := fun x hx =>
    mem_defined.mpr ((names_qualified a h x).mp (mem_tables.mp hx)).2
  rw [apply_eq_ok b hw, hdefined]
  exact congrArg Except.ok (qualified_qualified (List.Subset.refl _) hsub h rfl)

end Statement

/-- The schema that a statement is given stays: it goes to places that were empty, nothing else is
changed, only tables that the statement defines keep none, and no schema that comes later changes
anything.  So a database compiles every statement with the schema it was given last. -/
theorem apply_settles {n : Node} (h : n.wellFormed = true) :
    (∀ a, ∃ m, apply a n = .ok m ∧ Filled a n m ∧
      (∀ x, m.Names x ↔ n.Names x ∧ n.Defines x) ∧ ∀ b, apply b m = .ok m) ∧
    ∀ (M : Type → Type) [Monad M] (db : Database M) (a b : String),
      ((db.withSchema a).withSchema b).compile n = (db.withSchema b).compile n := by
  refine ⟨fun a => ⟨_, apply_eq_ok a h, filled_qualified a _ _ h [], names_qualified a h,
    apply_qualified a h⟩, fun M _ db a b => ?_⟩
  have hkind := kind_qualified b (tables n) (defined n) n []
  have hb := apply_eq_ok b h
  have ha := apply_qualified b h a
  simp only [Database.compile, Database.withSchema, Plugin.compileWith, Plugin.sendAll,
    Plugin.withSchema, hb, ha, hkind, bind, Except.bind, if_true]

/-- Of two tables one is defined by a with clause from the other, which alone is given a schema. -/
theorem apply_settles_definedTable :
    let fromTable (x : String) : Node := ⟨.fromClause [.table none x]⟩
    let n : Node := ⟨.selectQuery {
      selections := [⟨.selection ⟨.selectAll⟩⟩]
      fromClause := some (fromTable "adults")
      withClause := some ⟨.withClause [⟨.commonTableExpression
        ⟨.commonTableExpressionName (.table none "adults") []⟩ none
        ⟨.selectQuery { fromClause := some (fromTable "person") }⟩⟩] false⟩ }⟩
    let db : Database Id := .offline .postgres
    n.wellFormed = true ∧
      (∃ m, apply "app" n = .ok m ∧ m.Names "adults" ∧ ¬ m.Names "person" ∧
        apply "other" m = .ok m) ∧
      ((db.withSchema "other").withSchema "app").compile n = (db.withSchema "app").compile n := by
  intro fromTable n db
  have hw : n.wellFormed = true := rfl
  have htables : tables n = ["adults", "person", "adults"] := by decide
  have hdefined : defined n = ["adults"] := by decide
  obtain ⟨hsettles, hcompile⟩ := apply_settles hw
  obtain ⟨m, hm, -, hnames, hother⟩ := hsettles "app"
  refine ⟨hw, ⟨m, hm, ?_, ?_, hother "other"⟩, hcompile Id db "other" "app"⟩
  · rw [hnames, ← mem_tables, ← mem_defined, htables, hdefined]
    decide
  · rw [hnames, ← mem_defined, hdefined]
    exact fun h => absurd h.2 (by decide)

end WithSchema

end SqlTree
