import SqlTree.Calendar
import SqlTree.Uuid
import SqlTree.Text.Quoted
import SqlTree.Json.Printer

/-!
# Values

What a statement may carry as a parameter or a literal, its plain JSON form and its literal text.
-/

namespace SqlTree

inductive Value where
  | null
  | bool (b : Bool)
  | int (n : Int64)
  | float (x : Float)
  | string (s : String)
  | bytes (bs : List UInt8)
  | json (j : Json)
  | uuid (u : Uuid)
  | dateTime (t : DateTime)
  | date (d : Date)
  deriving Inhabited, Repr

namespace Value

/-- Equality of values, with floating-point numbers compared as numbers. -/
def beq : Value → Value → Bool
  | .null, .null => true
  | .bool a, .bool b => a == b
  | .int a, .int b => a == b
  | .float a, .float b => a == b
  | .string a, .string b => a == b
  | .bytes a, .bytes b => a == b
  | .json a, .json b => a == b
  | .uuid a, .uuid b => a == b
  | .dateTime a, .dateTime b => a == b
  | .date a, .date b => a == b
  | _, _ => false

instance : BEq Value := ⟨beq⟩

def isNull : Value → Bool
  | .null => true
  | _ => false

/-- Values that are compared with `is` rather than `=`. -/
def isNullOrBool : Value → Bool
  | .null => true
  | .bool _ => true
  | _ => false

/-- The plain JSON form; numbers that are not finite have none. -/
def toJson : Value → Json
  | .null => .null
  | .bool b => .bool b
  | .int n => .int n.toInt
  | .float x => if x.isFinite then .float x else .null
  | .string s => .string s
  | .bytes bs => .array (bs.map fun b => .int b.toNat)
  | .json j => j
  | .uuid u => .string u.text
  | .dateTime t => .string t.text
  | .date d => .string d.text

/-- The number as a double, rounded to nearest. -/
def floatOfInt (n : Int) : Float :=
  if n < 0 then -(n.natAbs.toUInt64.toFloat) else n.toNat.toUInt64.toFloat

def int64? (n : Int) : Option Int64 :=
  if Int64.minValue.toInt ≤ n ∧ n ≤ Int64.maxValue.toInt then some (Int64.ofInt n) else none

/-- Integers beyond 64 signed bits become floating-point numbers; arrays and objects stay
documents. -/
def ofJson : Json → Value
  | .null => .null
  | .bool b => .bool b
  | .int n => match int64? n with
    | some i => .int i
    | none => .float (floatOfInt n)
  | .float x => .float x
  | .string s => .string s
  | j => .json j

/-- A text between single quotes. -/
def quoted (s : String) : String := Text.enclosed '\'' '\'' s.toList

/-- Positional, with the fewest digits that read back; a half goes up. -/
def floatText (x : Float) : String :=
  match Decimal.Binary.ofFloat x with
  | some b => (b.shortest .up).positional
  | none => if x.isNaN then "NaN" else if x < 0 then "-inf" else "inf"

/-- A backslash, an x and two digits a byte. -/
def bytesText (bs : List UInt8) : String :=
  .ofList ('\\' :: 'x' :: bs.flatMap fun b => Uuid.hexDigits 2 b.toNat)

/-- The literal of standard SQL. -/
def text : Value → String
  | .null => "null"
  | .bool b => if b then "true" else "false"
  | .int n => toString n.toInt
  | .float x => floatText x
  | .string s => quoted s
  | .bytes bs => "'" ++ bytesText bs ++ "'"
  | .json j => quoted j.compact
  | .uuid u => "'" ++ u.text ++ "'"
  | .dateTime t => "'" ++ t.text ++ "'"
  | .date d => "'" ++ d.text ++ "'"

end Value

end SqlTree
