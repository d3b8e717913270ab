import SqlTree.Text.Blank

/-!
# Dates and times of day

Days of the proleptic Gregorian calendar and times without a zone, written and read in their ISO
forms.  A leap second is the second 60 of any minute.
-/

namespace SqlTree

def isLeapYear (y : Int) : Bool := y % 4 == 0 && (y % 100 != 0 || y % 400 == 0)

def daysInMonth (y : Int) (m : Nat) : Nat :=
  if m = 2 then (if isLeapYear y then 29 else 28)
  else if m = 4 ∨ m = 6 ∨ m = 9 ∨ m = 11 then 30
  else 31

/-- The years that dates may have. -/
def validDate (y : Int) (m d : Nat) : Bool :=
  -262143 ≤ y && y ≤ 262142 && 1 ≤ m && m ≤ 12 && 1 ≤ d && d ≤ daysInMonth y m

structure Date where
  year : Int
  month : Nat
  day : Nat
  valid : validDate year month day = true
  deriving DecidableEq, Repr

/-- A time of day; `nano` counts billionths of a second. -/
structure Time where
  hour : Fin 24
  minute : Fin 60
  second : Fin 61
  nano : Fin 1000000000
  deriving DecidableEq, Repr

structure DateTime where
  date : Date
  time : Time
  deriving DecidableEq, Repr

/-- A number with at least `width` digits. -/
def padded (width n : Nat) : String :=
  let ds := (toString n).toList
  .ofList (List.replicate (width - ds.length) '0' ++ ds)

/-- Years from 0 to 9999 have four digits and no sign, all others a sign. -/
def yearText (y : Int) : String :=
  if 0 ≤ y ∧ y ≤ 9999 then padded 4 y.toNat
  else (if y < 0 then "-" else "+") ++ padded 4 y.natAbs

def Date.text (d : Date) : String :=
  yearText d.year ++ "-" ++ padded 2 d.month ++ "-" ++ padded 2 d.day

/-- Fractions of a second have 0, 3, 6 or 9 digits, as few as are exact. -/
def fractionText (nano : Nat) : String :=
  if nano = 0 then ""
  else if nano % 1000000 = 0 then "." ++ padded 3 (nano / 1000000)
  else if nano % 1000 = 0 then "." ++ padded 6 (nano / 1000)
  else "." ++ padded 9 nano

def Time.text (t : Time) : String :=
  padded 2 t.hour.val ++ ":" ++ padded 2 t.minute.val ++ ":" ++ padded 2 t.second.val ++
    fractionText t.nano.val

/-- The form with a `T` between date and time. -/
def DateTime.iso (t : DateTime) : String := t.date.text ++ "T" ++ t.time.text

/-- The form with a blank between date and time. -/
def DateTime.text (t : DateTime) : String := t.date.text ++ " " ++ t.time.text

namespace Calendar

/-- From 1 to `width` digits, as many as there are. -/
def digits (width : Nat) (cs : List Char) : Option (Nat × List Char) :=
  let ds := (cs.take width).takeWhile Char.isDigit
  if ds.isEmpty then none
  else some (ds.foldl (fun n c => n * 10 + (c.toNat - '0'.toNat)) 0, cs.drop ds.length)

/-- A number after any blanks. -/
def field (width : Nat) (cs : List Char) : Option (Nat × List Char) :=
  digits width (Text.trimLeft cs)

/-- Up to four digits, or any number of digits after a sign. -/
def year (cs : List Char) : Option (Int × List Char) :=
  match Text.trimLeft cs with
  | '-' :: cs => (digits cs.length cs).map fun (n, r) => (-(n : Int), r)
  | '+' :: cs => (digits cs.length cs).map fun (n, r) => ((n : Int), r)
  | cs => (digits 4 cs).map fun (n, r) => ((n : Int), r)

/-- The mark `c` directly, after blanks if `spaced`. -/
def mark (c : Char) (spaced : Bool) (cs : List Char) : Option (List Char) :=
  match if spaced then Text.trimLeft cs else cs with
  | d :: rest => if d = c then some rest else none
  | [] => none

def date (cs : List Char) : Option (Date × List Char) := do
  let (y, cs) ← year cs
  let cs ← mark '-' true cs
  let (m, cs) ← field 2 cs
  let cs ← mark '-' true cs
  let (d, cs) ← field 2 cs
  if h : validDate y m d then some (⟨y, m, d, h⟩, Text.trimLeft cs) else none

/-- The digits after a point, of which the first nine count. -/
def nano (cs : List Char) : Option (Nat × List Char) :=
  match cs with
  | '.' :: cs => do
    let (n, rest) ← digits 9 cs
    return (n * Nat.pow 10 (9 - (cs.length - rest.length)), rest.dropWhile Char.isDigit)
  | cs => some (0, cs)

def time (cs : List Char) : Option (Time × List Char) := do
  let (h, cs) ← field 2 cs
  let cs ← mark ':' true cs
  let (m, cs) ← field 2 cs
  let cs ← mark ':' true cs
  let (s, cs) ← field 2 cs
  let (n, cs) ← nano cs
  if h : h < 24 ∧ m < 60 ∧ s < 61 ∧ n < 1000000000 then
    some (⟨⟨_, h.1⟩, ⟨_, h.2.1⟩, ⟨_, h.2.2.1⟩, ⟨_, h.2.2.2⟩⟩, Text.trimLeft cs)
  else none

end Calendar

def Date.ofText? (s : String) : Option Date :=
  match Calendar.date s.toList with
  | some (d, []) => some d
  | _ => none

def DateTime.ofText? (s : String) : Option DateTime := do
  let (d, cs) ← Calendar.date s.toList
  let cs ← Calendar.mark 'T' false cs
  match Calendar.time cs with
  | some (t, []) => some ⟨d, t⟩
  | _ => none

end SqlTree
