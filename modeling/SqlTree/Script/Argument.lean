import SqlTree.Value.Codec
import SqlTree.Decimal.Reader
import SqlTree.Tree.Codec
import SqlTree.Build.Operand

/-!
# Arguments in scripts

A script is a statement written as a document: where it starts, and the calls that follow, each an
array of a name and its arguments.  Arguments are names, plain values, and scripts of their own.
-/

namespace SqlTree

namespace Json

mutual

/-- How deep arrays and objects are nested. -/
def depth : Json → Nat
  | .array js => depthItems js + 1
  | .object ms => depthMembers ms + 1
  | _ => 0

def depthItems : List Json → Nat
  | [] => 0
  | j :: js => max (depth j) (depthItems js)

def depthMembers : List (String × Json) → Nat
  | [] => 0
  | (_, j) :: ms => max (depth j) (depthMembers ms)

end

/-- The items of an array; anything else has none. -/
def items (j : Json) : List Json := j.array?.getD []

end Json

namespace Script

/-- A call with its arguments. -/
structure Call where
  name : String
  arguments : List Json

def readable {α : Type} : Option α → Except Error α
  | some a => .ok a
  | none => .error .unreadable

def call : Json → Except Error Call
  | .array (.string name :: arguments) => .ok ⟨name, arguments⟩
  | _ => .error .unreadable

/-- Makes the calls of a list one after another. -/
def calls {α : Type} (f : α → Call → Except Error α) (a : α) (j : Json) : Except Error α :=
  j.items.foldlM (fun a c => do f a (← call c)) a

def strings (j : Json) : Except Error (List String) := readable (j.items.mapM Json.string?)

/-- A plain value: tagged, or as plain JSON; the text of a tagged float is read as a number. -/
def value : Json → Except Error Value
  | .object [("Float", .string s)] => readable ((Decimal.readFloat? s).map .float)
  | .object ms => readable (Value.ofTagged? (.object ms))
  | j => .ok (.ofJson j)

def tree (j : Json) : Except Error Node := readable (Node.ofJson? j)

/-- Readers of the scripts inside a script. -/
structure Readers where
  expression : Json → Except Error Node
  operand : Json → Except Error Operand
  statement : Json → Except Error Node

namespace Readers

variable (r : Readers)

def term : Json → Except Error Term
  | .string s => .ok (.text s)
  | j => return .node (← r.expression j)

def terms (j : Json) : Except Error (List Term) := j.items.mapM r.term

def expressions (j : Json) : Except Error (List Node) := j.items.mapM r.expression

def pair : Json → Except Error (String × Node)
  | .array [.string column, e] => return (column, ← r.expression e)
  | _ => .error .unreadable

def pairs (j : Json) : Except Error (List (String × Node)) := j.items.mapM r.pair

/-- The arguments of a comparison with a value. -/
def comparison (left right : Json) : Except Error (Term × Operand) := do
  let l ← r.term left
  return (l, ← r.operand right)

/-- The arguments of a comparison of columns. -/
def columns (left right : Json) : Except Error (Term × Term) := do
  let l ← r.term left
  return (l, ← r.term right)

end Readers

end Script

end SqlTree
