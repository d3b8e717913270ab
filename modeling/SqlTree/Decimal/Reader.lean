import SqlTree.Decimal.Shortest

/-!
# Reading decimals

The text of a floating-point number: an optional sign before digits with a point among, before or
behind them and an optional exponent, or before a word for infinity or for no number.
-/

namespace SqlTree.Decimal

/-- A run of digits, its value and its length. -/
def run (cs : List Char) : Nat × Nat × List Char :=
  let ds := cs.takeWhile Char.isDigit
  (ds.foldl (fun n c => n * 10 + (c.toNat - '0'.toNat)) 0, ds.length, cs.dropWhile Char.isDigit)

def readExponent : List Char → Option Int
  | [] => some 0
  | c :: cs =>
    if c = 'e' ∨ c = 'E' then
      let (negative, cs) := match cs with
        | '-' :: cs => (true, cs)
        | '+' :: cs => (false, cs)
        | cs => (false, cs)
      let (n, length, rest) := run cs
      if length = 0 ∨ ¬ rest.isEmpty then none else some (if negative then -(n : Int) else n)
    else none

/-- Digits with at most one point, then an exponent. -/
def readUnsigned (negative : Bool) (cs : List Char) : Option Decimal := do
  let (whole, n, rest) := run cs
  let (value, places, count, rest) := match rest with
    | '.' :: rest =>
      let (fraction, m, rest) := run rest
      (whole * Nat.pow 10 m + fraction, m, n + m, rest)
    | rest => (whole, 0, n, rest)
  if count = 0 then none
  let e ← readExponent rest
  return ⟨negative, value, e - places⟩

/-- The double nearest to a decimal. -/
def toFloat (d : Decimal) : Float :=
  let magnitude := (digitChars d.digits).length + d.exponent
  let x :=
    if d.digits = 0 ∨ magnitude < -400 then 0.0
    else if 400 < magnitude then 1.0 / 0.0
    else Float.ofScientific d.digits (d.exponent < 0) d.exponent.natAbs
  if d.negative then -x else x

/-- Words are read in any letter case. -/
def readFloat? (s : String) : Option Float :=
  let (negative, cs) := match s.toList with
    | '-' :: cs => (true, cs)
    | '+' :: cs => (false, cs)
    | cs => (false, cs)
  let signed (x : Float) : Float := if negative then -x else x
  match String.ofList (cs.map Char.toLower) with
  | "inf" => some (signed (1.0 / 0.0))
  | "infinity" => some (signed (1.0 / 0.0))
  | "nan" => some (signed (0.0 / 0.0))
  | _ => (readUnsigned negative cs).map toFloat

end SqlTree.Decimal
