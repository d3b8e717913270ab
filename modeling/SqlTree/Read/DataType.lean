import SqlTree.Error
import SqlTree.Text.Blank
import SqlTree.Text.Lowercase
import SqlTree.Tree.Node

/-!
# Data types in text

Known type names of one or more words, with numbers in parentheses behind the name, more words of
the name behind them, and brackets for arrays.  A type is written in lower case with single blanks.
-/

namespace SqlTree.Read

/-- The names of types, numbers left out. -/
def knownTypes : List String := [
  "bigint", "bigserial", "binary", "bit", "blob", "bool", "boolean", "bytea", "char", "character",
  "character varying", "cidr", "date", "datetime", "datetime2", "datetimeoffset", "decimal",
  "double", "double precision", "float", "float4", "float8", "inet", "int", "int2", "int4",
  "int8", "integer", "interval", "json", "jsonb", "longblob", "longtext", "mediumint",
  "mediumtext", "money", "nchar", "ntext", "numeric", "nvarchar", "real", "serial",
  "smalldatetime", "smallint", "smallserial", "text", "time", "time with time zone",
  "time without time zone", "timestamp", "timestamp with time zone",
  "timestamp without time zone", "timestamptz", "timetz", "tinyint", "tinytext", "tsvector",
  "uniqueidentifier", "uuid", "varbinary", "varbit", "varchar", "xml", "year"]

/-- A type as its words, numbers, later words and brackets. -/
structure DataType where
  words : List String
  numbers : Option (List Nat)
  later : List String
  arrays : Nat
  deriving DecidableEq, Repr

namespace DataType

def isWordChar (c : Char) : Bool := c.isAlphanum || c == '_'

def isSpace (c : Char) : Bool := c == ' ' || c == '\t'

def isSpaceOrLine (c : Char) : Bool := isSpace c || c == '\r' || c == '\n'

/-- A word, none if there is none. -/
def word? (cs : List Char) : Option (String × List Char) :=
  let w := cs.takeWhile isWordChar
  if w.isEmpty then none else some (.ofList w, cs.dropWhile isWordChar)

/-- Words after blanks, as many as there are; the blanks behind the last one are not taken. -/
def wordsAfter : Nat → List Char → List String × List Char
  | 0, cs => ([], cs)
  | fuel + 1, cs =>
    if (cs.takeWhile isSpace).isEmpty then ([], cs)
    else match word? (cs.dropWhile isSpace) with
      | some (w, rest) =>
        let (ws, rest) := wordsAfter fuel rest
        (w :: ws, rest)
      | none => ([], cs)

/-- A number of at most 32 bits. -/
def number? (cs : List Char) : Option (Nat × List Char) :=
  let ds := cs.takeWhile Char.isDigit
  let n := ds.foldl (fun n c => n * 10 + (c.toNat - '0'.toNat)) 0
  if ds.isEmpty ∨ UInt32.size ≤ n then none else some (n, cs.dropWhile Char.isDigit)

/-- Numbers after commas, then the closing parenthesis. -/
def numbersRest : Nat → List Char → Option (List Nat × List Char)
  | 0, _ => none
  | fuel + 1, cs =>
    match cs.dropWhile isSpaceOrLine with
    | ')' :: rest => some ([], rest)
    | ',' :: rest => do
      let (n, rest) ← number? (rest.dropWhile isSpaceOrLine)
      let (ns, rest) ← numbersRest fuel rest
      return (n :: ns, rest)
    | _ => none

/-- Numbers in parentheses after blanks, if they stand there. -/
def numbers? (cs : List Char) : Option (List Nat × List Char) :=
  match cs.dropWhile isSpaceOrLine with
  | '(' :: rest => do
    let (n, rest) ← number? (rest.dropWhile isSpaceOrLine)
    let (ns, rest) ← numbersRest rest.length rest
    return (n :: ns, rest)
  | _ => none

/-- Pairs of brackets up to the end. -/
def brackets? : List Char → Option Nat
  | [] => some 0
  | '[' :: ']' :: rest => (brackets? rest).map (· + 1)
  | _ => none

def ofChars? (cs : List Char) : Option DataType := do
  let (w, rest) ← word? cs
  let (ws, rest) := wordsAfter rest.length rest
  let (ns, rest) := match numbers? rest with
    | some (ns, rest) => (some ns, rest)
    | none => (none, rest)
  let (later, rest) := wordsAfter rest.length rest
  return ⟨w :: ws, ns, later, ← brackets? rest⟩

/-- The name of the type. -/
def fullName (t : DataType) : String := " ".intercalate (t.words ++ t.later)

def isKnown (t : DataType) : Bool := knownTypes.contains t.fullName

/-- The type as it is written. -/
def text (t : DataType) : String :=
  " ".intercalate t.words ++
    (match t.numbers with
      | some ns => "(" ++ ", ".intercalate (ns.map toString) ++ ")"
      | none => "") ++
    .join (t.later.map (" " ++ ·)) ++ .join (List.replicate t.arrays "[]")

end DataType

/-- A type in any letter case. -/
def dataTypeText (input : String) : Except Error String :=
  match DataType.ofChars? (Text.lowercase (Text.trim input)).toList with
  | some t => if t.isKnown then .ok t.text else .error (.invalidDataType input)
  | none => .error (.invalidDataType input)

def dataType (input : String) : Except Error Node := do
  return ⟨.dataType (← dataTypeText input)⟩

end SqlTree.Read
