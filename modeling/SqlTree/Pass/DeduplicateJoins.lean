import SqlTree.Tree.Walk

/-!
# Repeated joins

A join that equals an earlier join of its statement is dropped, in inner statements first.
-/

namespace SqlTree.DeduplicateJoins

/-- The first of every group of equal nodes, `seen` being those met before. -/
def firsts (seen : List Node) : List Node → List Node
  | [] => []
  | n :: ns => if seen.any (· == n) then firsts seen ns else n :: firsts (seen ++ [n]) ns

def deduplicate (n : Node) : Node :=
  match n with
  | ⟨.selectQuery p⟩ => ⟨.selectQuery { p with joins := firsts [] p.joins }⟩
  | ⟨.updateQuery p⟩ => ⟨.updateQuery { p with joins := firsts [] p.joins }⟩
  | ⟨.deleteQuery p⟩ => ⟨.deleteQuery { p with joins := firsts [] p.joins }⟩
  | _ => n

/-- The tree without repeated joins. -/
def apply (root : Node) : Except Error Node := root.transform fun n _ => deduplicate n

end SqlTree.DeduplicateJoins
