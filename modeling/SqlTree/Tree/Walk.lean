import SqlTree.Tree.Field
import SqlTree.Error

/-!
# Walks over trees

Visiting every node from the root down, and replacing every node from the leaves up.  Both see
siblings in the order in which they are written and know the ancestors of a node, the root first.
-/

namespace SqlTree.Node

/-- Every node with its ancestors, each node before the nodes below it. -/
def visit (root : Node) : List (Node × List Node) :=
  para (fun n s ancestors =>
    (n, ancestors) :: s.children.flatMap fun c => c.2 (ancestors ++ [n])) root []

/-- A node for a position, refused if the position requires another kind. -/
def fit {m : Type → Type} [Monad m] (slot : Slot) (n : Node) : ExceptT Error m Node :=
  match slot with
  | .any => pure n
  | .only k => if n.kind = k then pure n else throw (.pluginContract k n.kind)

/-- Replaces nodes from the leaves up.  Each is seen after its children were replaced,
and its ancestors as they were. -/
def transformM {m : Type → Type} [Monad m] (f : Node → List Node → m Node) (root : Node) :
    ExceptT Error m Node :=
  para (β := List Node → ExceptT Error m Node) (fun n s ancestors => do
    let s ← s.traverse fun slot c => do fit slot (← c.2 (ancestors ++ [n]))
    f (.mk s) ancestors) root []

def transform (f : Node → List Node → Node) (root : Node) : Except Error Node :=
  Id.run (transformM (fun n ancestors => pure (f n ancestors)) root).run

end SqlTree.Node
