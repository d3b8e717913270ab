import SqlTree.Read.Reference

/-!
# Operands

What callers put into a statement: values, names still given as text, and trees.  A comparison with
a plain null or truth value is a test with `is`, and its right side is written into the statement.
-/

namespace SqlTree

/-- A plain value, or a tree that stands for one. -/
inductive Operand where
  | value (v : Value)
  | node (n : Node)

namespace Operand

/-- The operand with a plain value as a parameter. -/
def bound : Operand → Node
  | .value v => ⟨.value v false⟩
  | .node n => n

/-- The operand with a plain value as a literal. -/
def inline : Operand → Node
  | .value v => ⟨.value v true⟩
  | .node n => n

def value? : Operand → Option Value
  | .value v => some v
  | .node _ => none

/-- A list in parentheses, of plain values if all of them are plain. -/
def list (os : List Operand) : Node :=
  match os.mapM value? with
  | some vs => ⟨.valueList (.primitive vs)⟩
  | none => ⟨.valueList (.expressions (os.map bound))⟩

/-- A plain value that is compared with `is`. -/
def isTested : Operand → Bool
  | .value v => v.isNullOrBool
  | .node _ => false

end Operand

/-- A name given as text, or a tree that stands for it. -/
inductive Term where
  | text (s : String)
  | node (n : Node)

namespace Term

/-- The term as a column. -/
def reference : Term → Except Error Node
  | .text s => Read.reference s
  | .node n => .ok n

/-- The term as a column that may have an alias. -/
def selection : Term → Except Error Node
  | .text s => Read.aliasedReference s
  | .node n => .ok n

/-- The term as a table that may have an alias. -/
def table : Term → Except Error Node
  | .text s => Read.tableExpression s
  | .node n => .ok n

end Term

namespace Operator

/-- The operator against a right side: equality with a tested value is `is`. -/
def against (op : Operator) (right : Operand) : Operator :=
  if right.isTested then
    if op.isEquality then .is else if op.isInequality then .isNot else op
  else op

/-- Operators whose tested right side is written into the statement. -/
def isTest : Operator → Bool
  | .is => true
  | .isNot => true
  | _ => false

end Operator

namespace Node

def binary (left : Node) (op : Operator) (right : Node) : Node :=
  ⟨.binaryOperation left ⟨.operator op⟩ right⟩

def unary (op : Operator) (operand : Node) : Node := ⟨.unaryOperation ⟨.operator op⟩ operand⟩

/-- A comparison with a right side that may be plain. -/
def comparison (left : Node) (op : Operator) (right : Operand) : Node :=
  let op := op.against right
  .binary left op (if right.isTested && op.isTest then right.inline else right.bound)

/-- A comparison by an operator given as text. -/
def compare (left : Node) (operator : String) (right : Operand) : Except Error Node := do
  return left.comparison (← Operator.readBinary operator) right

end Node

namespace Term

/-- A comparison of a column with a value. -/
def compare (left : Term) (operator : String) (right : Operand) : Except Error Node := do
  (← left.reference).compare operator right

/-- A comparison of a column with another tree, both read before the operator. -/
def relate (left : Term) (operator : String) (right : Term) : Except Error Node := do
  let l ← left.reference
  let r ← right.reference
  l.compare operator (.node r)

/-- A comparison of two columns, the operator read before the second one. -/
def compareColumns (left : Term) (operator : String) (right : Term) : Except Error Node := do
  let l ← left.reference
  let op ← Operator.readBinary operator
  return .binary l op (← right.reference)

end Term

end SqlTree
