import SqlTree.Build.Operand
import SqlTree.Read.DataType

/-!
# Expressions

Trees for conditions and computed values.
-/

namespace SqlTree.Node

/-- A value as a parameter. -/
def bound (v : Value) : Node := ⟨.value v false⟩

/-- A value written into the statement. -/
def literal (v : Value) : Node := ⟨.value v true⟩

/-- Text of the statement itself. -/
def raw (sql : String) : Node := ⟨.raw [sql] []⟩

/-- Text with places for parameters, each of them a pair of braces. -/
def rawWith (sql : String) (parameters : List Node) : Except Error Node :=
  let fragments := (Text.pieces ['\x7b', '\x7d'] sql.toList).map String.ofList
  if fragments.length = parameters.length + 1 then .ok ⟨.raw fragments parameters⟩
  else .error (.validation (.rawParameters sql (fragments.length - 1) parameters.length))

def parens (n : Node) : Node := ⟨.parens n⟩

def negation (n : Node) : Node := .unary .not n

def isNull (n : Node) : Node := .binary n .is (.literal .null)

def isNotNull (n : Node) : Node := .binary n .isNot (.literal .null)

/-- A condition that holds always, or never. -/
def constantCondition (b : Bool) : Node :=
  .binary (.literal (.int 1)) .eq (.literal (.int (if b then 1 else 0)))

/-- Conditions joined from the left by `join`, in parentheses if there are several. -/
def joined (join : Node → Node → Node) (none : Node) : List Node → Node
  | [] => none
  | [c] => c
  | c :: cs => .parens (cs.foldl join c)

def both (left right : Node) : Node := ⟨.and left right⟩

def either (left right : Node) : Node := ⟨.or left right⟩

/-- All of the conditions; no condition holds always. -/
def conjunction (cs : List Node) : Node := joined both (constantCondition true) cs

/-- One of the conditions; no condition holds never. -/
def disjunction (cs : List Node) : Node := joined either (constantCondition false) cs

def call (name : String) (arguments : List Node) : Node := ⟨.function name arguments⟩

def castTo (n : Node) (dataType : String) : Except Error Node := do
  return ⟨.cast n (← Read.dataType dataType)⟩

/-- A column of the row an insert could not insert. -/
def excluded (column : String) : Except Error Node := do
  return ⟨.reference (some (.table none "excluded")) (.column (← Read.columnName column))⟩

end SqlTree.Node

namespace SqlTree

/-- A term within two bounds. -/
def Term.between (t : Term) (low high : Operand) : Except Error Node := do
  return .binary (← t.reference) .between (.both low.bound high.bound)

/-- The branches of a case, each with its condition and its result. -/
structure CaseBranches where
  value : Option Node := none
  branches : List Node := []
  otherwise : Option Node := none

namespace CaseBranches

def when (c : CaseBranches) (condition result : Operand) : CaseBranches :=
  { c with branches := c.branches ++ [⟨.when condition.bound (some result.bound)⟩] }

def orElse (c : CaseBranches) (result : Operand) : CaseBranches :=
  { c with otherwise := some result.bound }

/-- The case, as an expression or as a statement of its own. -/
def node (c : CaseBranches) (isStatement : Bool) : Node :=
  ⟨.caseExpr c.value c.branches c.otherwise isStatement⟩

end CaseBranches

end SqlTree
