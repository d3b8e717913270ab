import SqlTree.Proofs.Tree.Rewriting

/-!
# Walking over trees

A walk from the root down meets a node, and then what the walks over its children meet, in the order
of the children (`Node.visitBelow_mk`).
-/

namespace SqlTree

namespace Node

/-- The walk over a tree below given ancestors. -/
def visitBelow (root : Node) : List Node → List (Node × List Node) :=
  para (fun n s ancestors =>
    (n, ancestors) :: s.children.flatMap fun c => c.2 (ancestors ++ [n])) root

theorem visit_eq_visitBelow (n : Node) : n.visit = n.visitBelow [] := rfl

theorem visitBelow_mk (s : Shape Node) (ancestors : List Node) :
    visitBelow ⟨s⟩ ancestors =
      (⟨s⟩, ancestors) :: s.children.flatMap fun c => c.visitBelow (ancestors ++ [⟨s⟩]) := by
  rw [visitBelow, para_mk, Shape.children_map, List.flatMap_map]
  rfl

theorem self_mem_visitBelow (n : Node) (ancestors : List Node) :
    (n, ancestors) ∈ n.visitBelow ancestors := by
  obtain ⟨s⟩ := n
  rw [visitBelow_mk]
  exact List.mem_cons_self

theorem mem_visitBelow_of_child {s : Shape Node} {c : Node} (hc : c ∈ s.children)
    {ancestors : List Node} {v : Node × List Node} (hv : v ∈ c.visitBelow (ancestors ++ [⟨s⟩])) :
    v ∈ visitBelow ⟨s⟩ ancestors := by
  rw [visitBelow_mk]
  exact List.mem_cons_of_mem _ (List.mem_flatMap.mpr ⟨c, hc, hv⟩)

end Node

end SqlTree
