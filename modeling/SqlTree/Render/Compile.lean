import SqlTree.Render.Layout
import SqlTree.Pass.Pagination

/-!
# Compiled statements

A tree is adapted to its dialect and then written as text with numbered parameters.
-/

namespace SqlTree

/-- A statement as a database takes it, with the tree that was written. -/
structure Compiled where
  query : Node
  sql : String
  parameters : List Value

namespace Node

/-- The text and parameters of a tree that needs no adapting. -/
def render (d : Dialect) (n : Node) : Except Error (String × List Value) :=
  let ps := n.pieces d
  match Piece.refusal? ps with
  | some f => .error (.unsupported d.name f)
  | none => .ok (Piece.sql d ps, Piece.parameters ps)

theorem render_of_refusal {d : Dialect} {n : Node} {f : Feature}
    (h : Piece.refusal? (n.pieces d) = some f) : n.render d = .error (.unsupported d.name f) := by
  simp only [render, h]

theorem render_of_no_refusal {d : Dialect} {n : Node} (h : Piece.refusal? (n.pieces d) = none) :
    n.render d = .ok (Piece.sql d (n.pieces d), Piece.parameters (n.pieces d)) := by
  simp only [render, h]

def compile (d : Dialect) (n : Node) : Except Error Compiled := do
  let q ← d.apply n
  let (sql, parameters) ← q.render d
  return ⟨q, sql, parameters⟩

end Node

end SqlTree
