import SqlTree.Json.Basic
import SqlTree.Decimal.Shortest

/-!
# Writing JSON

The compact form and the form indented by two blanks.
-/

namespace SqlTree.Json

def hexDigit (n : Nat) : Char := (Nat.digitChar (n % 16))

/-- Only quotes, backslashes and control characters are escaped. -/
def escapeChar (c : Char) : List Char :=
  if c = '"' then ['\\', '"']
  else if c = '\\' then ['\\', '\\']
  else if c = '\x08' then ['\\', 'b']
  else if c = '\x0c' then ['\\', 'f']
  else if c = '\n' then ['\\', 'n']
  else if c = '\r' then ['\\', 'r']
  else if c = '\t' then ['\\', 't']
  else if c.toNat < 0x20 then ['\\', 'u', '0', '0', hexDigit (c.toNat / 16), hexDigit c.toNat]
  else [c]

def quote (s : String) : String := .ofList ('"' :: s.toList.flatMap escapeChar ++ ['"'])

/-- Positional between `1e-5` and `1e16`, always with a point there; elsewhere an exponent with its
sign. -/
def decimalText (d : Decimal) : String :=
  let ds := Decimal.digitChars d.digits
  let sign := if d.negative then "-" else ""
  let point : Int := ds.length + d.exponent
  if d.digits = 0 then sign ++ "0.0"
  else if 0 ≤ d.exponent ∧ point ≤ 16 then
    sign ++ .ofList (ds ++ Decimal.zeros d.exponent.toNat) ++ ".0"
  else if -5 < point ∧ point ≤ 16 then d.positional
  else
    let mantissa := match ds with
      | [c] => String.ofList [c]
      | c :: cs => .ofList (c :: '.' :: cs)
      | [] => ""
    sign ++ mantissa ++ (if 0 < point then "e+" else "e") ++ toString (point - 1)

/-- The shortest text that reads back; numbers that are not finite have none. -/
def floatText (x : Float) : String :=
  match Decimal.Binary.ofFloat x with
  | some b => decimalText (b.shortest .toEven)
  | none => "null"

mutual

/-- The form without blanks. -/
def compact : Json → String
  | .null => "null"
  | .bool b => if b then "true" else "false"
  | .int n => toString n
  | .float x => floatText x
  | .string s => quote s
  | .array items => "[" ++ ",".intercalate (compactItems items) ++ "]"
  | .object members => "\x7b" ++ ",".intercalate (compactMembers members) ++ "\x7d"

def compactItems : List Json → List String
  | [] => []
  | j :: js => j.compact :: compactItems js

def compactMembers : List (String × Json) → List String
  | [] => []
  | (k, j) :: ms => (quote k ++ ":" ++ j.compact) :: compactMembers ms

end

def indent (depth : Nat) : String := .ofList (List.replicate (2 * depth) ' ')

/-- Blocks of lines between brackets, one item a line. -/
def block (depth : Nat) (opening closing : String) (lines : List String) : String :=
  if lines.isEmpty then opening ++ closing
  else
    let inner := indent (depth + 1)
    opening ++ "\n" ++ inner ++ (",\n" ++ inner).intercalate lines ++ "\n" ++ indent depth ++
      closing

mutual

/-- The form with one item or member a line, indented by two blanks. -/
def pretty (depth : Nat) : Json → String
  | .array items => block depth "[" "]" (prettyItems (depth + 1) items)
  | .object members => block depth "\x7b" "\x7d" (prettyMembers (depth + 1) members)
  | .null => "null"
  | .bool b => if b then "true" else "false"
  | .int n => toString n
  | .float x => floatText x
  | .string s => quote s

def prettyItems (depth : Nat) : List Json → List String
  | [] => []
  | j :: js => j.pretty depth :: prettyItems depth js

def prettyMembers (depth : Nat) : List (String × Json) → List String
  | [] => []
  | (k, j) :: ms => (quote k ++ ": " ++ j.pretty depth) :: prettyMembers depth ms

end

end SqlTree.Json
