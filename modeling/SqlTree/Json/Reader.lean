import SqlTree.Json.Basic

/-!
# Reading JSON

A reader that nests only so deep.  Integers that fit 64 bits, with or without a sign, are exact;
every other number is a double, made from up to 64 bits of its digits by one multiplication or
division with a power of ten.  A member whose value is well formed and yet cannot be read, such as a
number beyond all doubles, is passed over, and the rest of the document is read all the same.
-/

namespace SqlTree.Json

/-- A reader takes characters from the front of the text; `none` refuses the text. -/
abbrev Reader (α : Type) := List Char → Option (α × List Char)

def isSpace (c : Char) : Bool := c == ' ' || c == '\n' || c == '\t' || c == '\r'

def skipSpace (cs : List Char) : List Char := cs.dropWhile isSpace

/-- Takes the text `t` from the front. -/
def expect (t : List Char) (cs : List Char) : Option (List Char) :=
  if t.isPrefixOf cs then some (cs.drop t.length) else none

def digitValue (c : Char) : Nat := c.toNat - '0'.toNat

/-- The significand read so far, and the power of ten of its last digit. -/
structure Significand where
  value : Nat
  exponent : Int
  deriving DecidableEq, Repr

def maxWord : Nat := UInt64.size - 1

/-- The double `± value · 10 ^ exponent`, none if it is too large. -/
def scale (negative : Bool) (value : Nat) (exponent : Int) : Option Float :=
  let signed (x : Float) : Float := if negative then -x else x
  let rec down : Nat → Float → Int → Float
    | 0, x, _ => x
    | n + 1, x, e =>
      if -308 ≤ e then x / Float.ofScientific 1 false e.natAbs
      else if x == 0 then x
      else down n (x / Float.ofScientific 1 false 308) (e + 308)
  let x := value.toUInt64.toFloat
  if 0 ≤ exponent then
    if exponent ≤ 308 then
      let y := x * Float.ofScientific 1 false exponent.toNat
      if y.isInf then none else some (signed y)
    else if x == 0 then some (signed x)
    else none
  else some (signed (down 4 x exponent))

/-- Digits that still fit a word are part of the significand, the others are dropped. -/
def fractionDigits : Significand → List Char → Significand × List Char
  | s, c :: cs =>
    if c.isDigit then
      let next := s.value * 10 + digitValue c
      if next ≤ maxWord then fractionDigits ⟨next, s.exponent - 1⟩ cs
      else (s, cs.dropWhile Char.isDigit)
    else (s, c :: cs)
  | s, [] => (s, [])

/-- The digits of an exponent, none of them missing. -/
def exponentDigits (cs : List Char) : Option (Nat × List Char) :=
  let ds := cs.takeWhile Char.isDigit
  if ds.isEmpty then none
  else some (ds.foldl (fun n c => n * 10 + digitValue c) 0, cs.dropWhile Char.isDigit)

def signedExponent : List Char → Option (Int × List Char)
  | '+' :: cs => (exponentDigits cs).map fun (n, r) => ((n : Int), r)
  | '-' :: cs => (exponentDigits cs).map fun (n, r) => (-(n : Int), r)
  | cs => (exponentDigits cs).map fun (n, r) => ((n : Int), r)

/-- Exponents beyond 32 bits make a zero, or a number too large. -/
def withExponent (negative : Bool) (s : Significand) (cs : List Char) :
    Option (Float × List Char) := do
  let (n, rest) ← signedExponent cs
  if n.natAbs < Int32.size / 2 then
    let x ← scale negative s.value (s.exponent + n)
    return (x, rest)
  else if s.value ≠ 0 ∧ 0 < n then none
  else return (if negative then -0.0 else 0.0, rest)

/-- What may follow the digits before the point: a fraction, an exponent, both or nothing. -/
def afterDigits (negative : Bool) (s : Significand) : List Char → Option (Float × List Char)
  | '.' :: cs =>
    match cs with
    | c :: _ =>
      if c.isDigit then
        let (t, rest) := fractionDigits s cs
        match rest with
        | 'e' :: rest => withExponent negative t rest
        | 'E' :: rest => withExponent negative t rest
        | rest => (scale negative t.value t.exponent).map (·, rest)
      else none
    | [] => none
  | 'e' :: cs => withExponent negative s cs
  | 'E' :: cs => withExponent negative s cs
  | cs => (scale negative s.value s.exponent).map (·, cs)

/-- Digits before the point, as long as they fit a word. -/
def wholeDigits : Nat → List Char → Nat × List Char
  | n, c :: cs =>
    if c.isDigit ∧ n * 10 + digitValue c ≤ maxWord then wholeDigits (n * 10 + digitValue c) cs
    else (n, c :: cs)
  | n, [] => (n, [])

/-- A number after its sign.  Minus zero and integers out of range are floating-point numbers. -/
def unsigned (negative : Bool) (cs : List Char) : Option (Json × List Char) :=
  match cs with
  | [] => none
  | c :: rest =>
    if ¬ c.isDigit then none
    else
      let (n, rest) := if c = '0' then (0, rest) else wholeDigits 0 cs
      match rest with
      | d :: _ =>
        if d.isDigit then
          if c = '0' then none
          else
            let more := rest.takeWhile Char.isDigit
            (afterDigits negative ⟨n, more.length⟩ (rest.dropWhile Char.isDigit)).map
              fun (x, r) => (.float x, r)
        else if d = '.' ∨ d = 'e' ∨ d = 'E' then
          (afterDigits negative ⟨n, 0⟩ rest).map fun (x, r) => (.float x, r)
        else some (whole n, rest)
      | [] => some (whole n, [])
where
  whole (n : Nat) : Json :=
    if ¬ negative then .int n
    else if n = 0 ∨ Int64.size / 2 < n then .float (-(n.toUInt64.toFloat))
    else .int (-(n : Int))

def number (cs : List Char) : Option (Json × List Char) :=
  match cs with
  | '-' :: cs => unsigned true cs
  | cs => unsigned false cs

def hexValue (c : Char) : Option Nat :=
  if c.isDigit then some (c.toNat - '0'.toNat)
  else if 'a' ≤ c ∧ c ≤ 'f' then some (c.toNat - 'a'.toNat + 10)
  else if 'A' ≤ c ∧ c ≤ 'F' then some (c.toNat - 'A'.toNat + 10)
  else none

def hexQuad : List Char → Option (Nat × List Char)
  | a :: b :: c :: d :: cs => do
    let a ← hexValue a
    let b ← hexValue b
    let c ← hexValue c
    let d ← hexValue d
    return (((a * 16 + b) * 16 + c) * 16 + d, cs)
  | _ => none

/-- The character of an escape, after its backslash.  Surrogates come in pairs. -/
def escaped : List Char → Option (Char × List Char)
  | '"' :: cs => some ('"', cs)
  | '\\' :: cs => some ('\\', cs)
  | '/' :: cs => some ('/', cs)
  | 'b' :: cs => some ('\x08', cs)
  | 'f' :: cs => some ('\x0c', cs)
  | 'n' :: cs => some ('\n', cs)
  | 'r' :: cs => some ('\r', cs)
  | 't' :: cs => some ('\t', cs)
  | 'u' :: cs => do
    let (n, rest) ← hexQuad cs
    if 0xDC00 ≤ n ∧ n ≤ 0xDFFF then none
    else if 0xD800 ≤ n ∧ n ≤ 0xDBFF then
      let rest ← expect ['\\', 'u'] rest
      let (m, rest) ← hexQuad rest
      if 0xDC00 ≤ m ∧ m ≤ 0xDFFF then
        return (Char.ofNat (0x10000 + (n - 0xD800) * 0x400 + (m - 0xDC00)), rest)
      else none
    else return (Char.ofNat n, rest)
  | _ => none

/-- The rest of a string after its opening quote; `fuel` bounds the number of characters. -/
def stringRest : Nat → List Char → List Char → Option (String × List Char)
  | 0, _, _ => none
  | _ + 1, _, [] => none
  | fuel + 1, acc, c :: cs =>
    if c = '"' then some (.ofList acc.reverse, cs)
    else if c = '\\' then
      match escaped cs with
      | some (d, rest) => stringRest fuel (d :: acc) rest
      | none => none
    else if c.toNat < 0x20 then none
    else stringRest fuel (c :: acc) cs

def text (fuel : Nat) (cs : List Char) : Option (String × List Char) :=
  match cs with
  | '"' :: cs => stringRest fuel [] cs
  | _ => none

/-! ## Passing over text -/

/-- What follows digits, of which none may be missing. -/
def skipDigits (cs : List Char) : Option (List Char) :=
  if (cs.takeWhile Char.isDigit).isEmpty then none else some (cs.dropWhile Char.isDigit)

def skipExponent : List Char → Option (List Char)
  | '+' :: cs => skipDigits cs
  | '-' :: cs => skipDigits cs
  | cs => skipDigits cs

/-- What follows the rest of a number after its digits before the point. -/
def skipFraction : List Char → Option (List Char)
  | '.' :: cs =>
    match skipDigits cs with
    | some ('e' :: rest) => skipExponent rest
    | some ('E' :: rest) => skipExponent rest
    | rest => rest
  | 'e' :: cs => skipExponent cs
  | 'E' :: cs => skipExponent cs
  | cs => some cs

/-- What follows a number without a sign; only a zero alone begins with a zero. -/
def skipUnsigned (cs : List Char) : Option (List Char) :=
  if cs.head? == some '0' && (cs.takeWhile Char.isDigit).length != 1 then none
  else (skipDigits cs).bind skipFraction

/-- What follows the rest of a string; any code is good in an escape. -/
def skipString : List Char → Option (List Char)
  | '"' :: cs => some cs
  | '\\' :: 'u' :: a :: b :: c :: d :: cs =>
    if [a, b, c, d].all (hexValue · |>.isSome) then skipString cs else none
  | '\\' :: c :: cs =>
    if ['"', '\\', '/', 'b', 'f', 'n', 'r', 't'].contains c then skipString cs else none
  | c :: cs => if c.toNat < 0x20 then none else skipString cs
  | [] => none

/-- What follows a value without parts. -/
def skipLeaf (cs : List Char) : Option (List Char) :=
  match cs with
  | 'n' :: _ => expect "null".toList cs
  | 't' :: _ => expect "true".toList cs
  | 'f' :: _ => expect "false".toList cs
  | '"' :: rest => skipString rest
  | '-' :: rest => skipUnsigned rest
  | _ => skipUnsigned cs

/-- What comes next in text that is passed over. -/
inductive Awaited where
  | value
  | member
  /-- What may follow a value. -/
  | separator
  deriving DecidableEq, Repr

/-- What follows a value inside the arrays and objects `outer`, the innermost first and `true` for
an object; they may be any number.  Every step but the last one takes a character. -/
def skip : Nat → Awaited → List Bool → List Char → Option (List Char)
  | 0, _, _, _ => none
  | fuel + 1, .value, outer, cs =>
    match skipSpace cs with
    | '[' :: rest =>
      match skipSpace rest with
      | ']' :: rest => skip fuel .separator outer rest
      | rest => skip fuel .value (false :: outer) rest
    | '{' :: rest =>
      match skipSpace rest with
      | '}' :: rest => skip fuel .separator outer rest
      | rest => skip fuel .member (true :: outer) rest
    | rest =>
      match skipLeaf rest with
      | some rest => skip fuel .separator outer rest
      | none => none
  | fuel + 1, .member, outer, cs =>
    match skipSpace cs with
    | '"' :: rest =>
      match (skipString rest).map skipSpace with
      | some (':' :: rest) => skip fuel .value outer rest
      | _ => none
    | _ => none
  | fuel + 1, .separator, outer, cs =>
    match outer with
    | [] => some cs
    | isObject :: others =>
      match skipSpace cs, isObject with
      | ',' :: rest, false => skip fuel .value outer rest
      | ',' :: rest, true => skip fuel .member outer rest
      | ']' :: rest, false => skip fuel .separator others rest
      | '}' :: rest, true => skip fuel .separator others rest
      | _, _ => none

/-! ## Values -/

section Value

variable {α : Type}

/-- Items after the first bracket, each followed by a comma or by the closing bracket. -/
def itemsRest (item : Reader α) : Nat → List α → List Char → Option (List α × List Char)
  | 0, _, _ => none
  | fuel + 1, acc, cs =>
    match item (skipSpace cs) with
    | none => none
    | some (a, rest) =>
      match skipSpace rest with
      | ',' :: rest => itemsRest item fuel (a :: acc) rest
      | ']' :: rest => some ((a :: acc).reverse, rest)
      | _ => none

def membersRest (item : Reader α) :
    Nat → List (String × α) → List Char → Option (List (String × α) × List Char)
  | 0, _, _ => none
  | fuel + 1, acc, cs =>
    match text fuel (skipSpace cs) with
    | none => none
    | some (k, rest) =>
      match skipSpace rest with
      | ':' :: rest =>
        match item (skipSpace rest) with
        | none => none
        | some (a, rest) =>
          match skipSpace rest with
          | ',' :: rest => membersRest item fuel ((k, a) :: acc) rest
          | '}' :: rest => some (((k, a) :: acc).reverse, rest)
          | _ => none
      | _ => none

variable (alg : Algebra α)

/-- The value of a member, passed over if it is well formed but cannot be read. -/
def orSkipped (item : Reader α) : Reader α := fun cs =>
  match item cs with
  | some r => some r
  | none => (skip (cs.length + 1) .value [] cs).map (alg.skipped, ·)

def leaf (r : Option (Json × List Char)) : Option (α × List Char) :=
  r.map fun (j, rest) => (alg.leaf j, rest)

/-- One value; `depth` is how many arrays and objects may still be opened, and `fuel` is no less
than the length of the text. -/
def value (fuel : Nat) : Nat → Reader α
  | depth, cs =>
    match cs with
    | 'n' :: _ => leaf alg ((expect "null".toList cs).map (.null, ·))
    | 't' :: _ => leaf alg ((expect "true".toList cs).map (.bool true, ·))
    | 'f' :: _ => leaf alg ((expect "false".toList cs).map (.bool false, ·))
    | '"' :: _ => leaf alg ((text fuel cs).map fun (s, rest) => (.string s, rest))
    | '[' :: rest =>
      match depth with
      | 0 => none
      | depth + 1 =>
        match skipSpace rest with
        | ']' :: rest => some (alg.array [], rest)
        | rest =>
          (itemsRest (value fuel depth) fuel [] rest).map fun (as, r) => (alg.array as, r)
    | '{' :: rest =>
      match depth with
      | 0 => none
      | depth + 1 =>
        match skipSpace rest with
        | '}' :: rest => some (alg.object [], rest)
        | rest =>
          (membersRest (orSkipped alg (value fuel depth)) fuel [] rest).map
            fun (ms, r) => (alg.object ms, r)
    | _ => leaf alg (number cs)

/-- What a whole text stands for, with blanks around it; the members of objects stay as written. -/
def readWith (depth : Nat) (s : String) : Option α :=
  match value alg s.length depth (skipSpace s.toList) with
  | some (a, rest) => if (skipSpace rest).isEmpty then some a else none
  | none => none

end Value

/-- Documents in which nothing was passed over. -/
def whole : Algebra (Option Json) where
  leaf j := some j
  array js := (js.mapM id).map .array
  object ms := (ms.mapM fun (m : String × Option Json) => m.2.map (m.1, ·)).map .object
  skipped := none

/-- The document of a whole text. -/
def read? (depth : Nat) (s : String) : Option Json := (readWith whole depth s).join

end SqlTree.Json
