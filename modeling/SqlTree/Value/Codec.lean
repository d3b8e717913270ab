import SqlTree.Value.Basic

/-!
# Tagged values

The JSON form of values that keeps their type: the word `Null`, or an object whose only key is the
type.
-/

namespace SqlTree

namespace Json

/-- Whether a document is read as it comes, or was kept until it was known what it stands for.  In
what was kept, more documents stand for nothing. -/
inductive Mode where
  | direct
  | kept
  deriving DecidableEq, Repr

/-- Whether a document stands for nothing below a word. -/
def isNothing (mode : Mode) : Json → Bool
  | .null => true
  | .object [] => mode == .kept
  | _ => false

/-- A word, alone or as the only key of an object over nothing. -/
def word? (j : Json) (mode : Mode := .direct) : Option String :=
  match j with
  | .string s => some s
  | .object [(k, v)] => if v.isNothing mode then some k else none
  | _ => none

/-- An object with a single member. -/
def member? : Json → Option (String × Json)
  | .object [m] => some m
  | _ => none

def int64? : Json → Option Int64
  | .int n => Value.int64? n
  | _ => none

def float? : Json → Option Float
  | .int n => some (Value.floatOfInt n)
  | .float x => some x
  | _ => none

def byte? : Json → Option UInt8
  | .int n => if 0 ≤ n ∧ n < 256 then some n.toNat.toUInt8 else none
  | _ => none

def string? : Json → Option String
  | .string s => some s
  | _ => none

def bool? : Json → Option Bool
  | .bool b => some b
  | _ => none

def array? : Json → Option (List Json)
  | .array js => some js
  | _ => none

end Json

namespace Value

/-- The tagged form; numbers that are not finite have none. -/
def toTagged : Value → Json
  | .null => .string "Null"
  | .bool b => .object [("Bool", .bool b)]
  | .int n => .object [("Int", .int n.toInt)]
  | .float x => .object [("Float", if x.isFinite then .float x else .null)]
  | .string s => .object [("String", .string s)]
  | .bytes bs => .object [("Bytes", .array (bs.map fun b => .int b.toNat))]
  | .json j => .object [("Json", j)]
  | .uuid u => .object [("Uuid", .string u.text)]
  | .dateTime t => .object [("DateTime", .string t.iso)]
  | .date d => .object [("Date", .string d.text)]

/-- Reads the tagged form. -/
def ofTagged? (j : Json) (mode : Json.Mode := .direct) : Option Value :=
  if j.word? mode = some "Null" then some .null
  else
    match j.member? with
    | some ("Bool", v) => v.bool?.map .bool
    | some ("Int", v) => v.int64?.map .int
    | some ("Float", v) => v.float?.map .float
    | some ("String", v) => v.string?.map .string
    | some ("Bytes", v) => do return .bytes (← (← v.array?).mapM Json.byte?)
    | some ("Json", v) => some (.json v.sorted)
    | some ("Uuid", v) => do return .uuid (← Uuid.ofText? (← v.string?))
    | some ("DateTime", v) => do return .dateTime (← DateTime.ofText? (← v.string?))
    | some ("Date", v) => do return .date (← Date.ofText? (← v.string?))
    | _ => none

end Value

end SqlTree
