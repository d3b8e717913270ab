import SqlTree.Text.Blank

/-!
# Splitting texts

Texts cut at a mark, at every place or at the first one.
-/

namespace SqlTree.Text

/-- The pieces between the marks, one more than there are marks. -/
def splitAll (mark : Char) : List Char → List (List Char)
  | [] => [[]]
  | c :: cs =>
    if c = mark then [] :: splitAll mark cs
    else match splitAll mark cs with
      | [] => [[c]]
      | p :: ps => (c :: p) :: ps

/-- What stands before and behind the first mark. -/
def splitOnce? (mark : List Char) : List Char → Option (List Char × List Char)
  | [] => none
  | c :: cs =>
    if mark.isPrefixOf (c :: cs) then some ([], (c :: cs).drop mark.length)
    else match splitOnce? mark cs with
      | some (a, b) => some (c :: a, b)
      | none => none

/-- The pieces between the occurrences of a mark found from the left, `skip` being what is left of
the mark found last. -/
def piecesFrom (mark : List Char) (skip : Nat) : List Char → List (List Char)
  | [] => [[]]
  | c :: cs =>
    match skip with
    | k + 1 => piecesFrom mark k cs
    | 0 =>
      if mark.isPrefixOf (c :: cs) then [] :: piecesFrom mark (mark.length - 1) cs
      else match piecesFrom mark 0 cs with
        | [] => [[c]]
        | p :: ps => (c :: p) :: ps

/-- The pieces of a text at a mark of one or more characters. -/
def pieces (mark cs : List Char) : List (List Char) := piecesFrom mark 0 cs

def holds (mark cs : List Char) : Bool := (splitOnce? mark cs).isSome

theorem splitAll_ne_nil (mark : Char) (cs : List Char) : splitAll mark cs ≠ [] := by
  induction cs with
  | nil => simp [splitAll]
  | cons c cs ih =>
    by_cases h : c = mark
    · simp [splitAll, h]
    · cases hs : splitAll mark cs <;> simp [splitAll, h, hs]

end SqlTree.Text
