import SqlTree.Proofs.Tree.Each

/-!
# Computing over a tree from the leaves up

`Node.para` is written by structural recursion, shape by shape.  The equation `Node.para_mk` is
what a proof uses in its place: the value at a node is the algebra's, given the node and its shape
with every child paired with its own value.
-/

namespace SqlTree

namespace Node

variable {β : Type} (alg : Node → Shape (Node × β) → β)

theorem paraOptional_eq_map (o : Option Node) :
    paraOptional alg o = o.map fun n => (n, para alg n) := by
  cases o <;> rfl

theorem paraList_eq_map (ns : List Node) :
    paraList alg ns = ns.map fun n => (n, para alg n) := by
  induction ns with
  | nil => rfl
  | cons n ns ih => rw [paraList, ih]; rfl

theorem paraShape_eq_map (s : Shape Node) :
    paraShape alg s = s.map fun n => (n, para alg n) := by
  -- One form computes by `rfl`; the equations of a definition with so many are slow to make.
  rw [Shape.map_eq_each]
  cases s with
  | aggregateFunction p =>
    cases p
    simp only [Shape.each, Aggregate.each, ← paraOptional_eq_map, ← paraList_eq_map]
    rfl
  | onConflict p =>
    cases p
    simp only [Shape.each, OnConflict.each, ← paraOptional_eq_map, ← paraList_eq_map]
    rfl
  | selectQuery p =>
    cases p
    simp only [Shape.each, Select.each, ← paraOptional_eq_map, ← paraList_eq_map]
    rfl
  | insertQuery p =>
    cases p
    simp only [Shape.each, Insert.each, ← paraOptional_eq_map, ← paraList_eq_map]
    rfl
  | updateQuery p =>
    cases p
    simp only [Shape.each, Update.each, ← paraOptional_eq_map, ← paraList_eq_map]
    rfl
  | deleteQuery p =>
    cases p
    simp only [Shape.each, Delete.each, ← paraOptional_eq_map, ← paraList_eq_map]
    rfl
  | mergeQuery p =>
    cases p
    simp only [Shape.each, Merge.each, ← paraOptional_eq_map, ← paraList_eq_map]
    rfl
  | createTable p =>
    cases p
    simp only [Shape.each, CreateTable.each, ← paraList_eq_map]
    rfl
  | columnDefinition p =>
    cases p
    simp only [Shape.each, ColumnDefinition.each, ← paraOptional_eq_map]
    rfl
  | generated p =>
    cases p
    simp only [Shape.each, Generated.each, ← paraOptional_eq_map]
    rfl
  | references p =>
    cases p
    simp only [Shape.each, References.each, ← paraList_eq_map]
    rfl
  | createIndex p =>
    cases p
    simp only [Shape.each, CreateIndex.each, ← paraOptional_eq_map, ← paraList_eq_map]
    rfl
  | createView p =>
    cases p
    simp only [Shape.each, CreateView.each, ← paraOptional_eq_map, ← paraList_eq_map]
    rfl
  | alterTable p =>
    cases p
    simp only [Shape.each, AlterTable.each, ← paraOptional_eq_map, ← paraList_eq_map]
    rfl
  | alterColumn p =>
    cases p
    simp only [Shape.each, AlterColumn.each, ← paraOptional_eq_map]
    rfl
  | valueList items =>
    cases items with
    | primitive vs => rfl
    | expressions as =>
      simp only [Shape.each, ListItems.each, ← paraList_eq_map]
      rfl
  | _ =>
    simp only [Shape.each, ← paraOptional_eq_map, ← paraList_eq_map]
    rfl

/-- The value of the algebra at a node, from the values at its children. -/
theorem para_mk (s : Shape Node) :
    para alg (.mk s) = alg (.mk s) (s.map fun n => (n, para alg n)) := by
  rw [para, paraShape_eq_map]

end Node

end SqlTree
