/-!
# Whole numbers

Whole numbers written with digits and at most one sign.
-/

namespace SqlTree.Decimal

/-- The number that a text of digits stands for; there is none without a digit. -/
def digits? (cs : List Char) : Option Nat :=
  if cs.isEmpty || cs.any (!·.isDigit) then none
  else some (cs.foldl (fun n c => 10 * n + (c.toNat - '0'.toNat)) 0)

/-- A whole number with an optional sign in front. -/
def whole? (s : String) : Option Int :=
  match s.toList with
  | '+' :: cs => (digits? cs).map Int.ofNat
  | '-' :: cs => (digits? cs).map fun n => -(n : Int)
  | cs => (digits? cs).map Int.ofNat

end SqlTree.Decimal
