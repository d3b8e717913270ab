/-!
# Shortest decimals

The fewest decimal digits that read back as a given binary floating-point number, chosen by exact
arithmetic on the interval of reals that round to it.
-/

namespace SqlTree

/-- The number `± digits · 10 ^ exponent`. -/
structure Decimal where
  negative : Bool
  digits : Nat
  exponent : Int
  deriving DecidableEq, Repr

namespace Decimal

/-- A finite binary number `± mantissa · 2 ^ exponent`; `narrow` marks the numbers whose lower
neighbour is half as far away as the upper one. -/
structure Binary where
  negative : Bool
  mantissa : Nat
  exponent : Int
  narrow : Bool
  deriving DecidableEq, Repr

/-- Which of two equally near decimals is taken. -/
inductive Tie where
  | up
  | toEven
  deriving DecidableEq, Repr

/-- The weight of the leading bit of a double, 52 places above that of its last bit. -/
def Binary.leading : Nat := 4503599627370496

/-- The sign, exponent and fraction fields of a double; none for infinities and NaNs. -/
def Binary.ofBits (bits : Nat) : Option Binary :=
  let negative := bits / leading / 2048 == 1
  let field := bits / leading % 2048
  let fraction := bits % leading
  if field == 2047 then none
  else if field == 0 then some ⟨negative, fraction, -1074, false⟩
  else some ⟨negative, leading + fraction, (field : Int) - 1075, fraction == 0 && field != 1⟩

def Binary.ofFloat (x : Float) : Option Binary := Binary.ofBits x.toBits.toNat

/-- The multiples of `10 ^ e` at or next to the number, if one rounds to it: of two the nearer. -/
def Binary.onGrid? (b : Binary) (tie : Tie) (e : Int) : Option Nat :=
  let q := b.exponent - 2
  let scale := Nat.pow 2 q.toNat * Nat.pow 10 (-e).toNat
  let unit := Nat.pow 2 (-q).toNat * Nat.pow 10 e.toNat
  let value := 4 * b.mantissa * scale
  let low := (4 * b.mantissa - (if b.narrow then 1 else 2)) * scale
  let high := (4 * b.mantissa + 2) * scale
  let closed := b.mantissa % 2 == 0
  let inside (c : Nat) : Bool :=
    if closed then low ≤ c * unit && c * unit ≤ high else low < c * unit && c * unit < high
  let below := value / unit
  let above := below + 1
  match inside below, inside above with
  | false, false => none
  | true, false => some below
  | false, true => some above
  | true, true =>
    let down := value - below * unit
    let up := above * unit - value
    if down < up then some below
    else if up < down then some above
    else match tie with
      | .up => some above
      | .toEven => some (if below % 2 == 0 then below else above)

/-- Finer and finer grids, from `10 ^ e` on; seventeen digits always suffice. -/
def Binary.search (b : Binary) (tie : Tie) : Nat → Int → Nat × Int
  | 0, e => (0, e)
  | n + 1, e =>
    match b.onGrid? tie e with
    | some c => (c, e)
    | none => b.search tie n (e - 1)

/-- The shortest decimal that rounds to the number. -/
def Binary.shortest (b : Binary) (tie : Tie) : Decimal :=
  if b.mantissa = 0 then ⟨b.negative, 0, 0⟩
  else
    let top := (((b.mantissa.log2 + 1 : Nat) : Int) + b.exponent) * 30103 / 100000 + 1
    let (c, e) := b.search tie 30 top
    ⟨b.negative, c, e⟩

def digitChars (n : Nat) : List Char := (toString n).toList

def zeros (n : Nat) : List Char := List.replicate n '0'

/-- The digits with a point and without an exponent. -/
def positional (d : Decimal) : String :=
  let ds := digitChars d.digits
  let sign := if d.negative then "-" else ""
  if 0 ≤ d.exponent then sign ++ .ofList (ds ++ zeros d.exponent.toNat)
  else
    let places := (-d.exponent).toNat
    if places < ds.length then
      sign ++ .ofList (ds.take (ds.length - places) ++ '.' :: ds.drop (ds.length - places))
    else sign ++ "0." ++ .ofList (zeros (places - ds.length) ++ ds)

end Decimal

end SqlTree
