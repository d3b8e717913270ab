import SqlTree.Database.Driver
import SqlTree.Decimal.Whole
import SqlTree.Migrate.Tables

/-!
# Migration locks

A lock keeps two programs from migrating one database at once.  Some databases have a lock that ends
with the transaction, some a named lock that is given back, and some need none.
-/

namespace SqlTree

namespace Migrate

/-- The number of the lock where locks are numbered. -/
def lockNumber : Nat := 3853314791062309107

/-- A cell that says that a named lock was granted. -/
def isGranted : Json → Bool
  | .int n => n == 1
  | .string s => Decimal.whole? s == some 1
  | _ => false

/-- Whether the first row of an answer says that a named lock was granted. -/
def grants (r : QueryResult) : Bool :=
  match r.rows.head?.bind fun row => row.lookup "acquired" with
  | some j => isGranted j
  | none => false

end Migrate

namespace Dialect

/-- The statement that waits for the lock. -/
def lockStatement? : Dialect → Option String
  | .postgres => some ("select pg_advisory_xact_lock(" ++ toString Migrate.lockNumber ++ ")")
  | .mysql => some ("select get_lock('" ++ Migrate.lockTable ++ "', -1) as acquired")
  | .mssql => some ("exec sp_getapplock @Resource = '" ++ Migrate.lockTable ++
      "', @LockMode = 'Exclusive'")
  | .sqlite => none
  | .oracle => none

/-- The statement that gives the lock back. -/
def unlockStatement? : Dialect → Option String
  | .mysql => some ("select release_lock('" ++ Migrate.lockTable ++ "')")
  | _ => none

/-- Whether the answer to the lock statement has to say that the lock was granted. -/
def asksForLock (d : Dialect) : Bool := d == .mysql

variable {m : Type → Type} [Monad m]

def acquireLock (d : Dialect) (run : Executor m) : m (Except Error Unit) :=
  match d.lockStatement? with
  | none => return .ok ()
  | some sql => do
    match ← run (.raw sql) with
    | .error e => return .error e
    | .ok r =>
      if d.asksForLock && !Migrate.grants r then return .error (.migration .lockNotAcquired)
      else return .ok ()

def releaseLock (d : Dialect) (run : Executor m) : m (Except Error Unit) :=
  run.send d.unlockStatement?.toList

end Dialect

end SqlTree
