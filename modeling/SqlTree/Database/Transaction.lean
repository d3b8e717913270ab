import SqlTree.Database.Handle

/-!
# Transactions

Transactions around a body of actions, transactions that are ended by hand, and bodies bound to one
connection.  A transaction on a handle of the pool owns its connection and gives it back at its end;
one on a bound connection leaves it where it is.
-/

namespace SqlTree

/-- A binding with what it takes to end its transaction. -/
structure Pinned where
  binding : Nat
  owned : Bool
  deriving DecidableEq, Repr

/-- A transaction that is ended by hand. -/
structure Controlled where
  pinned : Pinned
  number : Nat
  deriving DecidableEq, Repr

namespace Database

variable {m : Type → Type} [Monad m] {α : Type} (db : Database m)

/-- The connection for a new transaction. -/
def pin (d : Driver m) : Action m Pinned :=
  match db.scope with
  | .transaction _ => throw (.transaction .nested)
  | .connection i => return ⟨i, false⟩
  | .pool => do return ⟨← Binding.new (← acquire d), true⟩

/-- Gives back the connection of a binding nobody refers to any longer, after undoing a transaction
that was left open. -/
def abandon (d : Driver m) (i : Nat) : Action m Unit := do
  match ← Binding.get? (m := m) i with
  | some ⟨some c, inTransaction⟩ => do
    if inTransaction then
      let _ ← Action.tell (d.rollback c (db.executor d c))
    Binding.release d i
  | _ => return

/-- Begins a transaction; if that fails, a connection taken for it is given back. -/
def begin (d : Driver m) (s : TransactionSettings) : Action m Pinned := do
  let p ← db.pin d
  let begun ← Action.attempt do
    let c ← Binding.current p.binding
    Action.call (d.begin c (db.executor d c) s)
    Binding.update p.binding fun binding => { binding with inTransaction := true }
  match begun with
  | .ok _ => return p
  | .error e =>
    if p.owned then db.abandon d p.binding
    throw e

/-- Undoes a transaction because of an error. -/
def rollbackAfter (d : Driver m) (c : Connection) (e : Error) : Action m Error := do
  match ← Action.tell (d.rollback c (db.executor d c)) with
  | .ok _ => return e
  | .error second => return .rollback e second

/-- Ends the transaction in a binding: it holds no transaction any longer. -/
def leave (d : Driver m) (p : Pinned) : Action m Unit := do
  Binding.update p.binding fun binding => { binding with inTransaction := false }
  if p.owned then Binding.release d p.binding

/-- Commits after a body that succeeded, and undoes one that failed or cannot be committed. -/
def finish (d : Driver m) (p : Pinned) (outcome : Except Error α) : Action m α := do
  let c ← Binding.current p.binding
  let r ← match outcome with
    | .error e => do pure (.error (← db.rollbackAfter d c e))
    | .ok a =>
      match ← Action.tell (d.commit c (db.executor d c)) with
      | .ok _ => pure (.ok a)
      | .error e => do pure (.error (← db.rollbackAfter d c e))
  leave d p
  Action.ofExcept r

def inTransaction (i : Nat) : Database m := { db with scope := .transaction i }

def onConnection (i : Nat) : Database m := { db with scope := .connection i }

/-- Runs a body in a transaction. -/
def transaction (s : TransactionSettings) (body : Database m → Action m α) : Action m α := do
  let d ← db.requireDriver
  let p ← db.begin d s
  let outcome ← (body (db.inTransaction p.binding)).attempt
  db.finish d p outcome

/-- Runs a body in a transaction that is undone also because of a fault in the body's result. -/
def transactionUnless (fault? : α → Option Error) (s : TransactionSettings)
    (body : Database m → Action m α) : Action m (α × Option Error) := do
  let d ← db.requireDriver
  let p ← db.begin d s
  match ← (body (db.inTransaction p.binding)).attempt with
  | .error e => db.finish d p (.error e)
  | .ok a =>
    let outcome : Except Error Unit := match fault? a with
      | some e => .error e
      | none => .ok ()
    match ← (db.finish d p outcome).attempt with
    | .ok _ => return (a, none)
    | .error e => return (a, some e)

/-- Runs a body on one connection. -/
def connection (body : Database m → Action m α) : Action m α := do
  if db.binding?.isSome then body db
  else
    let d ← db.requireDriver
    let i ← Binding.new (← acquire d)
    let outcome ← (body (db.onConnection i)).attempt
    Binding.release d i
    Action.ofExcept outcome

/-- Begins a transaction that is ended by hand, with the handle to use it by. -/
def startTransaction (s : TransactionSettings) : Action m (Controlled × Database m) := do
  let d ← db.requireDriver
  let p ← db.begin d s
  let number := (← get).ended.length
  modify fun s => { s with ended := s.ended ++ [false] }
  return (⟨p, number⟩, db.inTransaction p.binding)

end Database

namespace Controlled

variable {m : Type → Type} [Monad m] (t : Controlled) (db : Database m)

def isEnded : Action m Bool := do return (← get).ended[t.number]?.getD true

/-- Ends the transaction, unless that was done. -/
def finish (commit : Bool) : Action m Unit := do
  let d ← db.requireDriver
  if ← t.isEnded then throw (.transaction .closed)
  modify fun s => { s with ended := s.ended.set t.number true }
  let c ← Binding.current t.pinned.binding
  let r ← Action.tell (if commit then d.commit c (db.executor d c)
    else d.rollback c (db.executor d c))
  Database.leave d t.pinned
  Action.ofExcept r

def commit : Action m Unit := t.finish db true

def rollback : Action m Unit := t.finish db false

/-- A call of the driver on the connection of the transaction. -/
def onConnection (f : Driver m → Connection → Executor m → m (Except Error Unit)) :
    Action m Unit := do
  let d ← db.requireDriver
  let c ← Binding.current t.pinned.binding
  Action.call (f d c (db.executor d c))

def savepoint (name : String) : Action m Unit :=
  t.onConnection db fun d c run => d.savepoint c run name

def rollbackTo (name : String) : Action m Unit :=
  t.onConnection db fun d c run => d.rollbackTo c run name

def releaseSavepoint (name : String) : Action m Unit :=
  t.onConnection db fun d c run => d.releaseSavepoint c run name

/-- Forgets the transaction; one that was left open is undone if it owns its connection. -/
def drop : Action m Unit := do
  let d ← db.requireDriver
  if t.pinned.owned then db.abandon d t.pinned.binding

end Controlled

end SqlTree
