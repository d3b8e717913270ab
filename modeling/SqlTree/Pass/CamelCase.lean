import SqlTree.Text.Lowercase
import SqlTree.Tree.Walk
import SqlTree.Json.Basic

/-!
# Names in two spellings

`camelCase` names in statements and rows, `snake_case` names in the database.
-/

namespace SqlTree

/-- How names are spelled in the database. -/
structure CamelCase where
  /-- `FIRST_NAME` rather than `first_name`. -/
  upperCase : Bool := false
  /-- `address_1` for `address1`. -/
  underscoreBeforeDigits : Bool := false
  /-- `foo_b_a_r` rather than `foo_bar` for `fooBAR`. -/
  underscoreBetweenUppercaseLetters : Bool := false
  /-- Keys inside the values of a row are left as they are. -/
  maintainNestedObjectKeys : Bool := false
  deriving DecidableEq, Repr

namespace CamelCase

variable (o : CamelCase)

/-- What a letter becomes after `prev`, when `last` is the last letter written. -/
def snakeChar (prev last c : Char) : List Char :=
  if o.underscoreBeforeDigits && c.isDigit && !prev.isDigit && last != '_' then ['_', c]
  else if Text.isUpper c then
    (if o.underscoreBetweenUppercaseLetters || !Text.isUpper prev then ['_'] else []) ++
      Text.lowerChar c
  else [c]

def snakeRest (prev last : Char) : List Char → List Char
  | [] => []
  | c :: cs =>
    let new := snakeChar o prev last c
    new ++ snakeRest c (new.getLastD last) cs

def snakeChars : List Char → List Char
  | [] => []
  | c :: cs => Text.lowerChar c ++ snakeRest o c ((Text.lowerChar c).getLastD c) cs

/-- The spelling of a name in the database. -/
def snakeCase (s : String) : String :=
  let cs := snakeChars o s.toList
  .ofList (if o.upperCase then cs.flatMap Text.upperChar else cs)

/-- Names of capitals, digits and underscores. -/
def isUpperSnake (s : String) : Bool :=
  s.toList.all fun c => c == '_' || c.isDigit || Text.isUpper c

/-- Underscores are dropped and the letter after one is a capital. -/
def camelRest (prev : Char) : List Char → List Char
  | [] => []
  | c :: cs =>
    (if c = '_' then [] else if prev = '_' then Text.upperChar c else [c]) ++ camelRest c cs

def camelChars : List Char → List Char
  | [] => []
  | c :: cs => c :: camelRest c cs

/-- The spelling of a name outside the database. -/
def camelCase (s : String) : String :=
  let s := if o.upperCase && isUpperSnake s then Text.lowercase s else s
  .ofList (camelChars s.toList)

mutual

/-- A value of a row with the keys of its objects respelled. -/
def camelJson : Json → Json
  | .array js => .array (camelItems js)
  | .object ms => .ofMembers (camelMembers ms)
  | j => j

def camelItems : List Json → List Json
  | [] => []
  | j :: js => camelJson j :: camelItems js

def camelMembers : List (String × Json) → List (String × Json)
  | [] => []
  | (k, j) :: ms => (camelCase o k, camelJson j) :: camelMembers ms

end

/-- A row with its columns, and keys inside its values, respelled. -/
def camelRow (row : List (String × Json)) : List (String × Json) :=
  Json.sortMembers (row.map fun (k, j) =>
    (o.camelCase k, if o.maintainNestedObjectKeys then j else o.camelJson j))

def respell (n : Node) : Node :=
  match n with
  | ⟨.identifier s⟩ => ⟨.identifier (o.snakeCase s)⟩
  | _ => n

/-- The tree with every identifier as it is spelled in the database. -/
def apply (root : Node) : Except Error Node := root.transform fun n _ => o.respell n

end CamelCase

end SqlTree
