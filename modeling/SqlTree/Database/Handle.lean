import SqlTree.Database.Log
import SqlTree.Plugin

/-!
# Handles

A handle runs statements on a database: on any connection of the pool, or on one it is bound to.
A binding holds that connection, and is empty once the connection was given back.  Every
operation on a binding is atomic.
-/

namespace SqlTree

/-- What holds a connection that handles are bound to. -/
structure Binding where
  connection : Option Connection
  inTransaction : Bool := false
  deriving DecidableEq, Repr

/-- What the handles of one database share. -/
structure Shared where
  initialized : Bool := false
  bindings : List Binding := []
  /-- For every transaction that is ended by hand, whether it was. -/
  ended : List Bool := []
  deriving DecidableEq, Repr

/-- Actions on a database: they may fail, and what they did before stays done. -/
abbrev Action (m : Type → Type) := ExceptT Error (StateT Shared m)

inductive Scope where
  | pool
  | connection (binding : Nat)
  | transaction (binding : Nat)
  deriving DecidableEq, Repr

structure Database (m : Type → Type) [Monad m] where
  dialect : Dialect
  driver : Option (Driver m) := none
  log : Option (Log m) := none
  plugins : List Plugin := []
  scope : Scope := .pool

section

variable {m : Type → Type} [Monad m] {α : Type}

namespace Action

/-- A call of the driver. -/
def call (x : m (Except Error α)) : Action m α := ExceptT.mk (StateT.lift x)

/-- A call of the driver that cannot fail. -/
def tell (x : m α) : Action m α := ExceptT.lift (StateT.lift x)

def ofExcept : Except Error α → Action m α
  | .ok a => pure a
  | .error e => throw e

/-- The outcome of an action, failed or not. -/
def attempt (x : Action m α) : Action m (Except Error α) := ExceptT.lift x.run

end Action

namespace Database

variable (db : Database m)

/-- A database for compiling only. -/
def offline (d : Dialect) : Database m := { dialect := d }

def of (d : Driver m) (log : Option (Log m)) : Database m :=
  { dialect := d.dialect, driver := some d, log }

/-- Adds a plugin behind the others. -/
def withPlugin (p : Plugin) : Database m := { db with plugins := db.plugins ++ [p] }

/-- Gives a schema to all tables without one, before any other plugin sees them. -/
def withSchema (schema : String) : Database m :=
  { db with plugins := .withSchema schema :: db.plugins }

def isTransaction : Bool :=
  match db.scope with
  | .transaction _ => true
  | _ => false

def binding? : Option Nat :=
  match db.scope with
  | .pool => none
  | .connection s => some s
  | .transaction s => some s

def compile (n : Node) : Except Error Compiled := Plugin.compileWith db.plugins db.dialect n

def requireDriver : Action m (Driver m) :=
  match db.driver with
  | some d => pure d
  | none => throw (.connection .noDriver)

/-- Runs statements on a connection and logs them. -/
def executor (d : Driver m) (c : Connection) : Executor m := fun q => do
  let r ← d.execute c q
  Log.record db.log q r
  return r

/-- Initializes the driver, unless that was done. -/
def prepare (d : Driver m) : Action m Unit := do
  if (← get).initialized then return
  Action.call d.init
  modify fun s => { s with initialized := true }

/-- A connection of the pool. -/
def acquire (d : Driver m) : Action m Connection := do
  prepare d
  Action.call d.acquire

end Database

namespace Binding

def get? (i : Nat) : Action m (Option Binding) := do return (← get).bindings[i]?

/-- Puts a connection into a new binding. -/
def new (c : Connection) : Action m Nat := do
  let i := (← get).bindings.length
  modify fun s => { s with bindings := s.bindings ++ [⟨some c, false⟩] }
  return i

def update (i : Nat) (f : Binding → Binding) : Action m Unit :=
  modify fun s => { s with bindings := s.bindings.modify i f }

/-- The connection in a binding, if it was not given back. -/
def current (i : Nat) : Action m Connection := do
  match (← get? (m := m) i).bind Binding.connection with
  | some c => return c
  | none => throw (.transaction .finished)

/-- Empties the binding and gives its connection back. -/
def release (d : Driver m) (i : Nat) : Action m Unit := do
  let c := (← get? (m := m) i).bind Binding.connection
  update i fun _ => ⟨none, false⟩
  match c with
  | some c => Action.tell (d.release c)
  | none => return

end Binding

namespace Database

variable (db : Database m)

/-- Uses a connection: the one the handle is bound to, or one of the pool that is given back
afterwards. -/
def withConnection (use : Driver m → Connection → Action m α) : Action m α := do
  let d ← db.requireDriver
  match db.binding? with
  | some i => use d (← Binding.current i)
  | none =>
    let c ← acquire d
    let r ← (use d c).attempt
    Action.tell (d.release c)
    Action.ofExcept r

/-- Sends a compiled statement and does something with its result. -/
def sendInto (receive : QueryResult → Action m QueryResult) (q : Compiled) :
    Action m QueryResult := do
  receive (← db.withConnection fun d c => Action.call (db.executor d c q))

/-- Sends a statement once it is compiled. -/
def runInto (compile : Action m Compiled) (receive : QueryResult → Action m QueryResult) :
    Action m QueryResult := do
  db.sendInto receive (← compile)

/-- Sends a compiled statement; its result goes through the plugins. -/
def send (q : Compiled) : Action m QueryResult :=
  db.sendInto (fun r => Action.ofExcept (Plugin.receiveAll db.plugins r)) q

/-- Compiles a statement and sends it. -/
def run (n : Node) : Action m QueryResult :=
  db.runInto (Action.ofExcept (db.compile n))
    fun r => Action.ofExcept (Plugin.receiveAll db.plugins r)

/-- Runs a statement through plugins that have effects of their own. -/
def runHooked (hooks : List (Hook (Action m))) (n : Node) : Action m QueryResult :=
  db.runInto (Plugin.compileWith hooks db.dialect n) (Plugin.receiveAll hooks)

/-- Frees what the driver holds, if it was initialized. -/
def destroy : Action m Unit := do
  match db.driver with
  | some d => if (← get).initialized then Action.call d.destroy
  | none => return

end Database

end

end SqlTree
