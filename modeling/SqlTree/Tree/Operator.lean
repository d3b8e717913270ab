import SqlTree.Text.Lowercase
import SqlTree.Text.Blank
import SqlTree.Error
import SqlTree.Tree.Named

/-!
# Operators

The operators of comparisons, arithmetic and logic, how they are written, and how they are read
from text.
-/

namespace SqlTree

inductive Operator where
  | eq
  | doubleEq
  | ne
  | notEqual
  | gt
  | gte
  | lt
  | lte
  | isIn
  | notIn
  | is
  | isNot
  | like
  | notLike
  | ilike
  | notIlike
  | textMatch
  | contains
  | containedBy
  | startsWith
  | overlaps
  | hasKey
  | hasAllKeys
  | hasAnyKey
  | notLt
  | notGt
  | nullSafeEq
  | regex
  | regexI
  | notRegex
  | notRegexI
  | textSearch
  | textSearchIndex
  | doubleBang
  | distance
  | regexp
  | isDistinctFrom
  | isNotDistinctFrom
  | between
  | betweenSymmetric
  | notBetween
  | add
  | sub
  | mul
  | div
  | mod
  | pow
  | concat
  | bitAnd
  | bitOr
  | bitXor
  | shiftLeft
  | shiftRight
  | jsonGet
  | jsonGetText
  | not
  | hasRows
  | hasNoRows
  | negate
  deriving DecidableEq, Repr, Inhabited

namespace Operator

/-- The operators with two operands. -/
def binary : List Operator := [
  .eq, .doubleEq, .ne, .notEqual, .gt, .gte, .lt, .lte, .isIn, .notIn, .is, .isNot, .like,
  .notLike, .ilike, .notIlike, .textMatch, .contains, .containedBy, .startsWith, .overlaps,
  .hasKey, .hasAllKeys, .hasAnyKey, .notLt, .notGt, .nullSafeEq, .regex, .regexI, .notRegex,
  .notRegexI, .textSearch, .textSearchIndex, .doubleBang, .distance, .regexp, .isDistinctFrom,
  .isNotDistinctFrom, .between, .betweenSymmetric, .notBetween, .add, .sub, .mul, .div, .mod,
  .pow, .concat, .bitAnd, .bitOr, .bitXor, .shiftLeft, .shiftRight, .jsonGet, .jsonGetText]

/-- The operators with one operand. -/
def unary : List Operator := [
  .not, .hasRows, .hasNoRows, .negate]

def all : List Operator := binary ++ unary

/-- The operator as it is written in a statement. -/
def symbol : Operator → String
  | .eq => "="
  | .doubleEq => "=="
  | .ne => "!="
  | .notEqual => "<>"
  | .gt => ">"
  | .gte => ">="
  | .lt => "<"
  | .lte => "<="
  | .isIn => "in"
  | .notIn => "not in"
  | .is => "is"
  | .isNot => "is not"
  | .like => "like"
  | .notLike => "not like"
  | .ilike => "ilike"
  | .notIlike => "not ilike"
  | .textMatch => "match"
  | .contains => "@>"
  | .containedBy => "<@"
  | .startsWith => "^@"
  | .overlaps => "&&"
  | .hasKey => "?"
  | .hasAllKeys => "?&"
  | .hasAnyKey => "?|"
  | .notLt => "!<"
  | .notGt => "!>"
  | .nullSafeEq => "<=>"
  | .regex => "~"
  | .regexI => "~*"
  | .notRegex => "!~"
  | .notRegexI => "!~*"
  | .textSearch => "@@"
  | .textSearchIndex => "@@@"
  | .doubleBang => "!!"
  | .distance => "<->"
  | .regexp => "regexp"
  | .isDistinctFrom => "is distinct from"
  | .isNotDistinctFrom => "is not distinct from"
  | .between => "between"
  | .betweenSymmetric => "between symmetric"
  | .notBetween => "not between"
  | .add => "+"
  | .sub => "-"
  | .mul => "*"
  | .div => "/"
  | .mod => "%"
  | .pow => "^"
  | .concat => "||"
  | .bitAnd => "&"
  | .bitOr => "|"
  | .bitXor => "#"
  | .shiftLeft => "<<"
  | .shiftRight => ">>"
  | .jsonGet => "->"
  | .jsonGetText => "->>"
  | .not => "not"
  | .hasRows => "exists"
  | .hasNoRows => "not exists"
  | .negate => "-"

def name : Operator → String
  | .eq => "Eq"
  | .doubleEq => "DoubleEq"
  | .ne => "Ne"
  | .notEqual => "NotEqual"
  | .gt => "Gt"
  | .gte => "Gte"
  | .lt => "Lt"
  | .lte => "Lte"
  | .isIn => "In"
  | .notIn => "NotIn"
  | .is => "Is"
  | .isNot => "IsNot"
  | .like => "Like"
  | .notLike => "NotLike"
  | .ilike => "ILike"
  | .notIlike => "NotILike"
  | .textMatch => "Match"
  | .contains => "Contains"
  | .containedBy => "ContainedBy"
  | .startsWith => "StartsWith"
  | .overlaps => "Overlaps"
  | .hasKey => "HasKey"
  | .hasAllKeys => "HasAllKeys"
  | .hasAnyKey => "HasAnyKey"
  | .notLt => "NotLt"
  | .notGt => "NotGt"
  | .nullSafeEq => "NullSafeEq"
  | .regex => "Regex"
  | .regexI => "RegexI"
  | .notRegex => "NotRegex"
  | .notRegexI => "NotRegexI"
  | .textSearch => "TextSearch"
  | .textSearchIndex => "TextSearchIndex"
  | .doubleBang => "DoubleBang"
  | .distance => "Distance"
  | .regexp => "Regexp"
  | .isDistinctFrom => "IsDistinctFrom"
  | .isNotDistinctFrom => "IsNotDistinctFrom"
  | .between => "Between"
  | .betweenSymmetric => "BetweenSymmetric"
  | .notBetween => "NotBetween"
  | .add => "Add"
  | .sub => "Sub"
  | .mul => "Mul"
  | .div => "Div"
  | .mod => "Mod"
  | .pow => "Pow"
  | .concat => "Concat"
  | .bitAnd => "BitAnd"
  | .bitOr => "BitOr"
  | .bitXor => "BitXor"
  | .shiftLeft => "ShiftLeft"
  | .shiftRight => "ShiftRight"
  | .jsonGet => "JsonGet"
  | .jsonGetText => "JsonGetText"
  | .not => "Not"
  | .hasRows => "Exists"
  | .hasNoRows => "NotExists"
  | .negate => "Negate"

instance : Named Operator := ⟨all, name⟩

def isEquality : Operator → Bool
  | .eq => true
  | .doubleEq => true
  | _ => false

def isInequality : Operator → Bool
  | .ne => true
  | .notEqual => true
  | _ => false

def isUnary (op : Operator) : Bool := unary.contains op

/-- Letter case and blanks at the ends do not count. -/
def lookup (table : List Operator) (input : String) : Except Error Operator :=
  match table.find? (·.symbol == Text.lowercase (Text.trim input)) with
  | some op => .ok op
  | none => .error (.invalidOperator input)

def readBinary (input : String) : Except Error Operator := lookup binary input

def readUnary (input : String) : Except Error Operator := lookup unary input

end Operator

end SqlTree
