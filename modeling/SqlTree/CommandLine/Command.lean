import SqlTree.CommandLine.Arguments
import SqlTree.Dialect

/-!
# Commands

What can be asked for on the command line.
-/

namespace SqlTree.CommandLine

/-- How to show a statement. -/
inductive Format where
  | sql
  | json
  deriving DecidableEq, Repr

/-- How to show the rows of an answer. -/
inductive TableFormat where
  | table
  | json
  deriving DecidableEq, Repr

structure CompileOptions where
  input : String
  dialect : Dialect
  schema : Option String
  format : Format
  deriving DecidableEq, Repr

structure ExecOptions where
  input : String
  databaseUrl : Option String
  config : Option String
  dryRun : Bool
  format : TableFormat
  deriving DecidableEq, Repr

inductive Command where
  | compile (options : CompileOptions)
  | exec (options : ExecOptions)
  | dialects
  | help
  | version
  deriving DecidableEq, Repr

def Format.read? : String → Option Format
  | "sql" => some .sql
  | "json" => some .json
  | _ => none

def TableFormat.read? : String → Option TableFormat
  | "table" => some .table
  | "json" => some .json
  | _ => none

namespace Command

/-- An option with a value. -/
def valued (long : String) (short : Option Char) : Flag := { long, short, valued := true }

/-- Options of every command. -/
def common : List Flag := [⟨"verbose", some 'v', false, false⟩, ⟨"help", some 'h', false, true⟩]

/-- Options in front of the command. -/
def leading : List Flag := ⟨"version", some 'V', false, true⟩ :: common

def compileFlags : List Flag :=
  [valued "dialect" (some 'd'), valued "schema" none, valued "format" (some 'f')] ++ common

def execFlags : List Flag :=
  [valued "database-url" none, valued "config" (some 'c'), { long := "dry-run" },
    valued "format" (some 'f')] ++ common

/-- The only argument that is no option; a dash stands for it if it is missing. -/
def input? (ts : List Token) : Option String :=
  match Token.plains ts with
  | [] => some "-"
  | [s] => some s
  | _ => none

def readCompile (ts : List Token) : Option Command := do
  let input ← input? ts
  let dialect ← match Dialect.read ((Token.value? ts "dialect").getD "postgres") with
    | .ok d => some d
    | .error _ => none
  let format ← Format.read? ((Token.value? ts "format").getD "sql")
  return .compile ⟨input, dialect, Token.value? ts "schema", format⟩

/-- The URL of the environment counts if none is given. -/
def readExec (url : Option String) (ts : List Token) : Option Command := do
  let input ← input? ts
  let config := Token.value? ts "config"
  if config = some "" then none
  let format ← TableFormat.read? ((Token.value? ts "format").getD "table")
  return .exec ⟨input, (Token.value? ts "database-url").or url, config, Token.has ts "dry-run",
    format⟩

/-- Reads the arguments of one command, no option twice. -/
def withTokens (flags : List Flag) (args : List String) (f : List Token → Option Command) :
    Option Command := do
  let ts ← tokens flags false none args
  if !Token.areDistinct ts then none
  let c ← f ts
  return if Token.has ts "help" then .help else c

/-- The command behind options that go before it. -/
def named (url : Option String) (name : String) (args : List String) : Option Command :=
  match name with
  | "compile" => withTokens compileFlags args readCompile
  | "exec" => withTokens execFlags args (readExec url)
  | "dialects" => withTokens common args fun ts =>
      if (Token.plains ts).isEmpty then some .dialects else none
  | "help" =>
    match args with
    | [] => some .help
    | ["compile"] => some .help
    | ["exec"] => some .help
    | ["dialects"] => some .help
    | ["help"] => some .help
    | _ => none
  | _ => none

/-- The command of some arguments, with options before it; none if they are misused. -/
def readAfter (url : Option String) (before : List Token) : List String → Option Command
  | [] => none
  | a :: args =>
    if isOperand a then named url a args
    else do
      let (found, _) ← options leading a
      let ts := before ++ found
      if !Token.areDistinct ts then none
      else if Token.has ts "help" then some .help
      else if Token.has ts "version" then some .version
      else readAfter url ts args

def read? (url : Option String) (args : List String) : Option Command := readAfter url [] args

end Command

end SqlTree.CommandLine
