import SqlTree.Build.Clause
import SqlTree.Tree.Walk

/-!
# View definitions

Views hold a query, whose parameters are written into it.
-/

namespace SqlTree

/-- A node with its own parameters written as literals. -/
def Node.inlined (n : Node) : Node :=
  match n with
  | ⟨.value v _⟩ => .literal v
  | ⟨.valueList (.primitive vs)⟩ => ⟨.valueList (.expressions (vs.map .literal))⟩
  | n => n

/-- A tree with all its parameters written as literals. -/
def Node.inlineAll (root : Node) : Except Error Node := root.transform fun n _ => n.inlined

namespace CreateView

variable (p : CreateView Node)

def node : Node := ⟨.createView p⟩

def withColumns (columns : List String) : Except Error (CreateView Node) := do
  return { p with columns := ← columns.mapM Read.column }

def showing (query : Node) : Except Error (CreateView Node) := do
  return { p with query := some (← query.inlineAll) }

end CreateView

end SqlTree
