/-!
# Quoted texts

A text between two marks, with its closing mark written twice wherever it stands inside.
-/

namespace SqlTree.Text

/-- Every `mark` written twice. -/
def doubled (mark : Char) : List Char → List Char
  | [] => []
  | c :: cs => if c = mark then c :: c :: doubled mark cs else c :: doubled mark cs

def enclosed (opening closing : Char) (cs : List Char) : String :=
  .ofList (opening :: doubled closing cs ++ [closing])

end SqlTree.Text
