import SqlTree.Build.Expression
import SqlTree.Database.Settings
import SqlTree.Render.Compile
import SqlTree.Result

/-!
# Drivers

What a database offers its clients, in the monad `m` in which its calls take effect.  How
transactions begin and end is up to the driver; by default it sends statements.
-/

namespace SqlTree

/-- A connection that a driver has given out. -/
structure Connection where
  id : Nat
  deriving DecidableEq, Repr

/-- A way to run statements on a connection. -/
abbrev Executor (m : Type → Type) := Compiled → m (Except Error QueryResult)

/-- A statement given as text. -/
def Compiled.raw (sql : String) : Compiled := ⟨.raw sql, sql, []⟩

/-- Runs statements one after another until one fails. -/
def Executor.send {m : Type → Type} [Monad m] (run : Executor m) :
    List String → m (Except Error Unit)
  | [] => pure (.ok ())
  | s :: ss => do
    match ← run (.raw s) with
    | .ok _ => Executor.send run ss
    | .error e => return .error e

structure Driver (m : Type → Type) [Monad m] where
  dialect : Dialect
  init : m (Except Error Unit)
  acquire : m (Except Error Connection)
  release : Connection → m Unit
  execute : Connection → Executor m
  /-- The rows of a statement in chunks; a chunk may fail to arrive. -/
  stream : Connection → Compiled → Nat → m (List (Except Error QueryResult))
  begin : Connection → Executor m → TransactionSettings → m (Except Error Unit) :=
    fun _ run s => run.send (dialect.beginStatements s)
  commit : Connection → Executor m → m (Except Error Unit) := fun _ run => run.send ["commit"]
  rollback : Connection → Executor m → m (Except Error Unit) := fun _ run => run.send ["rollback"]
  savepoint : Connection → Executor m → String → m (Except Error Unit) :=
    fun _ run name => run.send ["savepoint " ++ dialect.quote name]
  rollbackTo : Connection → Executor m → String → m (Except Error Unit) :=
    fun _ run name => run.send ["rollback to savepoint " ++ dialect.quote name]
  releaseSavepoint : Connection → Executor m → String → m (Except Error Unit) :=
    fun _ run name => run.send ["release savepoint " ++ dialect.quote name]
  destroy : m (Except Error Unit)

end SqlTree
