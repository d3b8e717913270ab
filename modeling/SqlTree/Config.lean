import SqlTree.Database.Handle
import SqlTree.Text.Blank
import SqlTree.Toml.Reader

/-!
# Configuration

Which database to use and how, read from a TOML file, and the handle that follows from it.
-/

namespace SqlTree

structure Config where
  databaseUrl : Option String := none
  /-- The dialect of the URL, unless it is set. -/
  dialect : Option Dialect := none
  maxConnections : Nat := 5
  minConnections : Nat := 0
  /-- How long to wait for a connection, in seconds. -/
  acquireTimeout : Nat := 30
  log : Option (List LogLevel) := none
  /-- The schema of tables without one. -/
  schema : Option String := none
  camelCase : Bool := false
  deriving DecidableEq, Repr

/-- The variable of the environment that replaces the URL of the file. -/
def Config.urlVariable : String := "QUARRY_DATABASE_URL"

namespace Toml

def string? : Toml → Option String
  | .string s => some s
  | _ => none

def bool? : Toml → Option Bool
  | .bool b => some b
  | _ => none

/-- A number that is not negative and below a bound. -/
def below? (bound : Nat) : Toml → Option Nat
  | .int n => if 0 ≤ n ∧ n < bound then some n.toNat else none
  | _ => none

def isEmpty : Toml → Bool
  | .array [] => true
  | .table _ [] => true
  | .tables [] => true
  | _ => false

/-- The only key of a table, without a value that matters. -/
def onlyKey? : Members → Option String
  | [(k, v)] => if v.isEmpty then some k else none
  | _ => none

/-- A word of a fixed choice, written as a string or as the only key of a table. -/
def choice? {α : Type} [Named α] : Toml → Option α
  | .string s => Named.ofName? s
  | .table _ ms => (onlyKey? ms).bind Named.ofName?
  | _ => none

def choices? {α : Type} [Named α] : Toml → Option (List α)
  | .array items => items.mapM choice?
  | .tables ts => ts.mapM fun ms => (onlyKey? ms).bind Named.ofName?
  | _ => none

end Toml

namespace Config

/-- Takes over one setting of a file, all of which have to be known. -/
def set (c : Config) : String × Toml → Option Config
  | ("database_url", v) => do return { c with databaseUrl := some (← v.string?) }
  | ("dialect", v) => do return { c with dialect := some (← v.choice?) }
  | ("max_connections", v) => do return { c with maxConnections := ← v.below? UInt32.size }
  | ("min_connections", v) => do return { c with minConnections := ← v.below? UInt32.size }
  | ("acquire_timeout_secs", v) => do return { c with acquireTimeout := ← v.below? UInt64.size }
  | ("log", v) => do return { c with log := some (← v.choices?) }
  | ("schema", v) => do return { c with schema := some (← v.string?) }
  | ("camel_case", v) => do return { c with camelCase := ← v.bool? }
  | _ => none

/-- The configuration in the text of a file. -/
def read (source : String) : Except Error Config :=
  match (Toml.read? source).bind fun ms => ms.foldlM set {} with
  | some c => .ok c
  | none => .error (.config .unreadable)

variable (c : Config)

/-- Takes over the URL of the environment, if it has one that is not blank. -/
def withVariable (url : Option String) : Config :=
  match url with
  | some u => if Text.trim u = "" then c else { c with databaseUrl := some u }
  | none => c

/-- Sets the time to wait for a connection, cut to whole seconds. -/
def withTimeout (milliseconds : Nat) : Config := { c with acquireTimeout := milliseconds / 1000 }

def requireUrl : Except Error String :=
  match c.databaseUrl with
  | some u => .ok u
  | none => .error (.config .noDatabaseUrl)

/-- The dialect that is set, else the one of the URL, else the usual one. -/
def resolvedDialect : Except Error Dialect :=
  match c.dialect, c.databaseUrl with
  | some d, _ => .ok d
  | none, some u => Dialect.ofUrl u
  | none, none => .ok .postgres

/-- The dialect of the URL, which has to have a driver and must not contradict the one that is
set. -/
def driverDialect : Except Error Dialect := do
  let d ← Dialect.ofUrl (← c.requireUrl)
  if !d.hasDriver then throw (.config (.noBundledDriver d.name))
  match c.dialect with
  | some e => if e = d then return d else throw (.config (.otherDialect e.name))
  | none => return d

variable {m : Type → Type} [Monad m]

/-- The plugins for the settings that change statements. -/
def plugins : List Plugin :=
  (c.schema.toList.map Plugin.withSchema) ++ if c.camelCase then [.camelCase {}] else []

/-- A handle on the configured database; `driver` makes the driver for a dialect, and `sink` takes
the events of the log. -/
def connect (driver : Config → Dialect → Driver m) (sink : LogEvent → m Unit) :
    Except Error (Database m) := do
  let d ← c.driverDialect
  return { Database.of (driver c d) (Log.of? (c.log.getD []) sink) with plugins := c.plugins }

end Config

end SqlTree
