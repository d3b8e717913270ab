import SqlTree.Database.Transaction
import SqlTree.Migrate.Lock
import SqlTree.Migrate.Plan
import SqlTree.Value.Codec

/-!
# Migrators

A migrator knows migrations by name and brings a database to a target.  A batch holds the migration
lock, and is one transaction where definitions can be undone.
-/

namespace SqlTree

/-- How to change the database, and how to change it back. -/
structure Migration (m : Type → Type) [Monad m] where
  up : Database m → Action m Unit
  down : Database m → Action m Unit := fun _ => pure ()

namespace Migrate

inductive Status where
  | success
  | error
  | notExecuted
  deriving DecidableEq, Repr

def Status.name : Status → String
  | .success => "success"
  | .error => "error"
  | .notExecuted => "not_executed"

/-- What became of a planned migration. -/
structure Report where
  name : String
  direction : Direction
  status : Status
  deriving DecidableEq, Repr

/-- What became of all planned migrations, and why they were not all executed. -/
structure Batch where
  reports : List Report := []
  error : Option Error := none

/-- A migration that was executed, and when. -/
structure Executed where
  name : String
  time : Option String
  deriving DecidableEq, Repr

def Executed.ofRow (row : Row) : Except Error Executed :=
  match (row.lookup "name").bind Json.string? with
  | some name => .ok ⟨name, (row.lookup "timestamp").bind Json.string?⟩
  | none => .error (.migration .namelessRow)

end Migrate

/-- Whether definitions can be undone by a transaction. -/
def Dialect.undoesDefinitions : Dialect → Bool
  | .postgres => true
  | .sqlite => true
  | .mssql => true
  | .mysql => false
  | .oracle => false

/-- A database, its migrations in the order of their names, and a clock. -/
structure Migrator (m : Type → Type) [Monad m] where
  database : Database m
  migrations : List (String × Migration m) := []
  now : m String

namespace Migrator

open Migrate

variable {m : Type → Type} [Monad m]

/-- Puts a named item in its place; it takes that of another one with its name. -/
def insert {α : Type} (name : String) (a : α) : List (String × α) → List (String × α)
  | [] => [(name, a)]
  | (n, b) :: rest =>
    if name < n then (name, a) :: (n, b) :: rest
    else if name = n then (name, a) :: rest
    else (n, b) :: insert name a rest

variable (g : Migrator m)

def withMigration (name : String) (migration : Migration m) : Migrator m :=
  { g with migrations := insert name migration g.migrations }

def names : List String := g.migrations.map Prod.fst

/-- Runs a statement that was built. -/
def perform (db : Database m) (n : Except Error Node) : Action m QueryResult := do
  db.run (← Action.ofExcept n)

/-- Makes the tables of the bookkeeping and the row of the lock, as far as they are not there. -/
def ensureTables : Action m Unit := do
  let _ ← perform g.database createTable
  let _ ← perform g.database createLockTable
  let r ← perform g.database selectLockRow
  if r.rows.isEmpty then
    let _ ← perform g.database insertLockRow

/-- The executed migrations in the order of their names. -/
def executed (db : Database m) : Action m (List Executed) := do
  let r ← perform db selectExecuted
  Action.ofExcept (r.rows.mapM Executed.ofRow)

/-- The migrations, with the time at which they were executed if they were. -/
def status : Action m (List Executed) := do
  g.ensureTables
  let done ← executed g.database
  return g.names.map fun name => ⟨name, (done.find? (·.name == name)).bind Executed.time⟩

/-- Executes or reverts a migration and keeps the books. -/
def step (db : Database m) (direction : Direction) (name : String) : Action m Unit :=
  match g.migrations.lookup name with
  | none => throw (.migration (.unknown name))
  | some migration =>
    match direction with
    | .up => do
      migration.up db
      let time ← Action.tell g.now
      let _ ← perform db (record name time)
    | .down => do
      migration.down db
      let _ ← perform db (unrecord name)

/-- Follows a plan to its end or to the first failure. -/
def follow (db : Database m) (direction : Direction) : List String → Action m Batch
  | [] => return {}
  | name :: rest => do
    match ← (g.step db direction name).attempt with
    | .ok _ =>
      let b ← follow db direction rest
      return { b with reports := ⟨name, direction, .success⟩ :: b.reports }
    | .error e =>
      return ⟨⟨name, direction, .error⟩ :: rest.map (⟨·, direction, .notExecuted⟩),
        some (.migration (.failed name e))⟩

/-- Plans the way to a target and follows it. -/
def batch (db : Database m) (target : Target) : Action m Batch := do
  let done ← executed db
  Action.ofExcept (checkHistory g.names (done.map Executed.name))
  let plan ← Action.ofExcept (Plan.of g.names done.length target)
  g.follow db plan.direction plan.names

/-- Runs a batch while holding the migration lock. -/
def locked (db : Database m) (body : Action m Batch) : Action m Batch := do
  db.withConnection fun d c => Action.call (db.dialect.acquireLock (db.executor d c))
  let outcome ← body.attempt
  let released ← db.withConnection fun d c =>
    Action.tell (db.dialect.releaseLock (db.executor d c))
  let b ← Action.ofExcept outcome
  match b.error, released with
  | none, .error e => return { b with error := some e }
  | _, _ => return b

/-- Runs a locked batch in a transaction, or on one connection if a transaction is of no use. -/
def lockedBatch (target : Target) : Action m Batch := do
  if g.database.dialect.undoesDefinitions then
    let (b, e) ← g.database.transactionUnless Batch.error {} fun db => locked db (g.batch db target)
    return { b with error := e }
  else g.database.connection fun db => locked db (g.batch db target)

/-- Brings the database to a target; a failure is part of the answer. -/
def run (target : Target) : Action m Batch := do
  let outcome ← Action.attempt do
    g.ensureTables
    g.lockedBatch target
  match outcome with
  | .ok b => return b
  | .error e => return { error := some e }

end Migrator

end SqlTree
