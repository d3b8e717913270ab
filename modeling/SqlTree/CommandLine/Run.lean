import SqlTree.CommandLine.Command
import SqlTree.Config
import SqlTree.Json.Reader
import SqlTree.Tree.Codec

/-!
# Running commands

What a command prints, given what it may read.
-/

namespace SqlTree

/-- The statement as a document. -/
def Compiled.toJson (q : Compiled) : Json :=
  .object [("query", q.query.toJson), ("sql", .string q.sql),
    ("parameters", .array (q.parameters.map Value.toTagged))]

namespace CommandLine

/-- What a command may read. -/
structure Surroundings where
  input : String
  /-- The text of a file, or why it cannot be read. -/
  file : String → Except String String
  /-- The file of the user's own configuration, if there is one. -/
  userConfig : Option String := none
  /-- The URL of a database in the environment. -/
  databaseUrl : Option String := none

/-- What a command prints, and how it ends. -/
structure Report where
  code : Nat
  output : String := ""
  errors : String := ""
  deriving DecidableEq, Repr

/-- Why a command fails. -/
inductive Failure where
  /-- The file of the statement cannot be read. -/
  | noInput (path cause : String)
  /-- The input is not a tree. -/
  | noTree
  | error (e : Error)

/-- The messages of what caused an error, the nearest one first. -/
def causes : Error → List String
  | .database _ cause => [cause]
  | .inaccessible cause => [cause]
  | .rollback cause _ => cause.message :: causes cause
  | _ => []

def Failure.message : Failure → String
  | .noInput path cause => "failed to read " ++ path ++ ": " ++ cause
  | .noTree => "input is not a serialized query tree"
  | .error e => ": ".intercalate (e.message :: causes e)

/-- The most arrays and objects inside each other in the document of a tree. -/
def maxDepth : Nat := 127

/-- The tree of a document.  What cannot be read is passed over where nothing asks for it. -/
def tree? (source : String) : Option Node := do
  (← Json.readWith Reading.direct maxDepth source).node .any

def lifted {α : Type} : Except Error α → Except Failure α
  | .ok a => .ok a
  | .error e => .error (.error e)

variable (s : Surroundings)

def readInput (path : String) : Except Failure String :=
  if path = "-" then .ok s.input
  else match s.file path with
    | .ok text => .ok text
    | .error cause => .error (.noInput path cause)

def readTree (path : String) : Except Failure Node := do
  match tree? (← readInput s path) with
  | some n => return n
  | none => throw .noTree

/-- The configuration in a file. -/
def readConfig (path : String) : Except Failure Config :=
  match s.file path with
  | .error cause => .error (.error (.inaccessible cause))
  | .ok source =>
    match Config.read source with
    | .ok c => .ok c
    | .error (.config fault) => .error (.error (.config (.file path fault)))
    | .error e => .error (.error e)

/-- The configuration of a given file, or else the user's own, with the URL of the environment. -/
def loadConfig (path : Option String) : Except Failure Config := do
  let c ← match path.or s.userConfig with
    | some p => readConfig s p
    | none => pure {}
  return c.withVariable s.databaseUrl

def joinLines (ls : List String) : String := .join (ls.map (· ++ "\n"))

/-- The lines of a statement and its parameters. -/
def statementLines (q : Compiled) : List String :=
  let numbered := q.parameters.zipIdx.map fun (v, i) =>
    "  " ++ toString (i + 1) ++ " = " ++ v.text
  q.sql :: if q.parameters.isEmpty then [] else ["", "Parameters:"] ++ numbered

def compile (o : CompileOptions) : Except Failure String := do
  let n ← readTree s o.input
  let q ← lifted (Plugin.compileWith (o.schema.toList.map Plugin.withSchema) o.dialect n)
  match o.format with
  | .sql => return joinLines (statementLines q)
  | .json => return joinLines [q.toJson.pretty 0]

/-- Shows a statement without running it; there is no driver to run it with. -/
def exec (o : ExecOptions) : Except Failure String := do
  let n ← readTree s o.input
  let c ← loadConfig s o.config
  let c := { c with databaseUrl := o.databaseUrl.or c.databaseUrl }
  if o.dryRun then
    let d ← lifted c.resolvedDialect
    return joinLines (statementLines (← lifted (n.compile d)))
  else
    let _ ← lifted c.driverDialect
    throw (.error (.connection .noDriver))

/-- A text filled up with blanks to a width. -/
def padded (width : Nat) (text : String) : String :=
  text ++ .ofList (List.replicate (width - text.length) ' ')

/-- Cells under the columns of the table of dialects. -/
def tableLine (cells : List String) : String :=
  match cells.getLast? with
  | some last =>
    .join (List.zipWith (fun width c => padded width c ++ " ") [10, 8, 6, 22, 10, 26] cells) ++ last
  | none => ""

def ignoreText : IgnoreSpelling → String
  | .words s => s
  | .onConflictDoNothing => "on conflict do nothing"
  | .unsupported => "-"

def paginationText : Pagination → String
  | .limitOffset => "limit / offset"
  | .fetchNext => "offset / fetch next"
  | .topOrFetch => "top / offset fetch"

def dialectLine (d : Dialect) : String :=
  tableLine [if d.hasDriver then d.name else d.name ++ "*", d.quote "id", d.placeholder 1,
    d.autoIncrement, if d.supportsReturning then "yes" else "no", ignoreText d.insertIgnore,
    paginationText d.pagination]

/-- What the dialects write where they differ. -/
def dialectTable : List String :=
  [tableLine ["Dialect", "Quote", "Param", "Auto increment", "Returning", "Insert ignore",
      "Pagination"],
    .ofList (List.replicate 100 '─')] ++
    Dialect.all.map dialectLine ++ ["", "* compile only, no bundled driver"]

def usage : List String := [
  "Compile and execute quarry query trees", "",
  "Usage: quarry [OPTIONS] <COMMAND>", "",
  "Commands:",
  "  compile   Compile a JSON AST into SQL",
  "  exec      Execute a JSON AST against a database",
  "  dialects  Show how each dialect renders the dialect-specific parts of SQL",
  "  help      Print this message or the help of the given subcommand(s)", "",
  "Options:",
  "  -v, --verbose  Log runtime events",
  "  -h, --help     Print help",
  "  -V, --version  Print version"]

def perform : Command → Except Failure String
  | .compile o => compile s o
  | .exec o => exec s o
  | .dialects => .ok (joinLines dialectTable)
  | .help => .ok (joinLines usage)
  | .version => .ok "quarry 0.1.0\n"

/-- How a command ends: with 1 if it fails. -/
def report : Except Failure String → Report
  | .ok output => { code := 0, output }
  | .error f => { code := 1, errors := "Error: " ++ f.message ++ "\n" }

/-- Runs what the arguments ask for, unless they are misused. -/
def run (args : List String) : Report :=
  match Command.read? s.databaseUrl args with
  | some c => report (perform s c)
  | none => { code := 2, errors := joinLines usage }

end CommandLine

end SqlTree
