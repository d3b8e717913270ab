import SqlTree.Dialect

/-!
# Pieces of a statement

A statement is written as a list of pieces.  Its text and its parameters are two readings of that
list, so a parameter and its place cannot be told apart; a piece that a dialect cannot express makes
the whole statement fail.
-/

namespace SqlTree

inductive Piece where
  /-- Words and marks of the language. -/
  | text (s : String)
  /-- Text that is written as it was given. -/
  | verbatim (s : String)
  | name (s : String)
  | parameter (v : Value)
  | literal (v : Value)
  | refused (feature : Feature)

namespace Piece

/-- The first thing that cannot be expressed. -/
def refusal? : List Piece → Option Feature
  | [] => none
  | .refused f :: _ => some f
  | _ :: ps => refusal? ps

def parameters : List Piece → List Value
  | [] => []
  | .parameter v :: ps => v :: parameters ps
  | _ :: ps => parameters ps

/-- The texts of the pieces after `n` parameters. -/
def texts (d : Dialect) : Nat → List Piece → List String
  | _, [] => []
  | n, .text s :: ps => s :: texts d n ps
  | n, .verbatim s :: ps => s :: texts d n ps
  | n, .name s :: ps => d.quote s :: texts d n ps
  | n, .parameter _ :: ps => d.placeholder (n + 1) :: texts d (n + 1) ps
  | n, .literal v :: ps => d.literal v :: texts d n ps
  | n, .refused _ :: ps => texts d n ps

def sql (d : Dialect) (ps : List Piece) : String := .join (texts d 0 ps)

end Piece

end SqlTree
