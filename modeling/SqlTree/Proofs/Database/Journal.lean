import SqlTree.Proofs.Database.Tape

/-!
# Journals

Computations that write down what happens, in the order in which it happens, and drivers among them
that may do anything each time, by all that was written before (`Conduct`).  How a driver goes about
transactions is left to it: it may send any statements on the connection it is given (`Talk`).
-/

namespace SqlTree

/-- How a driver goes about a part of a transaction: statements on the connection it is given, each
chosen by the answers before it. -/
inductive Talk where
  | done (r : Except Error Unit)
  | say (q : Compiled) (next : Except Error QueryResult → Talk)

namespace Talk

variable {m : Type → Type} [Monad m]

def through (run : Executor m) : Talk → m (Except Error Unit)
  | .done r => pure r
  | .say q next => run q >>= fun a => (next a).through run

/-- Statements that are sent until one fails. -/
def texts : List String → Talk
  | [] => .done (.ok ())
  | s :: ss => .say (.raw s) fun
    | .ok _ => texts ss
    | .error e => .done (.error e)

/-- Drivers talk in this way unless they have their own. -/
theorem through_texts (run : Executor m) (ss : List String) :
    (texts ss).through run = run.send ss := by
  induction ss with
  | nil => rfl
  | cons s ss ih =>
    refine congrArg (run (.raw s) >>= ·) (funext fun a => ?_)
    cases a with
    | ok r => exact ih
    | error e => rfl

end Talk

/-- Computations with a journal whose entries are of type `N`. -/
abbrev Journal (N : Type) := StateM (List N)

namespace Journal

variable {N α : Type}

/-- An answer, entered when it is given. -/
def answer (reply : List N → α) (enter : α → N) : Journal N α :=
  fun entries => (reply entries, entries ++ [enter (reply entries)])

/-- A part of a transaction, entered after the statements it takes. -/
def talk (plan : List N → Talk) (run : Executor (Journal N)) (enter : Except Error Unit → N) :
    Journal N (Except Error Unit) := do
  let a ← (plan (← get)).through run
  answer (fun _ => a) enter

def write (x : N) : Journal N Unit := fun entries => ((), entries ++ [x])

end Journal

/-- What a driver does, each time by all that was entered before. -/
structure Conduct (N : Type) where
  dialect : Dialect
  init : List N → Except Error Unit
  acquire : List N → Except Error Connection
  execute : List N → Connection → Compiled → Except Error QueryResult
  stream : List N → Connection → Compiled → Nat → List (Except Error QueryResult)
  begin : List N → Connection → TransactionSettings → Talk :=
    fun _ _ s => .texts (dialect.beginStatements s)
  commit : List N → Connection → Talk := fun _ _ => .texts ["commit"]
  rollback : List N → Connection → Talk := fun _ _ => .texts ["rollback"]
  savepoint : List N → Connection → String → Talk :=
    fun _ _ name => .texts ["savepoint " ++ dialect.quote name]
  rollbackTo : List N → Connection → String → Talk :=
    fun _ _ name => .texts ["rollback to savepoint " ++ dialect.quote name]
  releaseSavepoint : List N → Connection → String → Talk :=
    fun _ _ name => .texts ["release savepoint " ++ dialect.quote name]
  destroy : List N → Except Error Unit

/-- The driver that does this, with its calls entered in some form. -/
def Conduct.driver {N : Type} (r : Conduct N) (enter : Call → N) : Driver (Journal N) where
  dialect := r.dialect
  init := .answer r.init fun a => enter (.init a)
  acquire := .answer r.acquire fun a => enter (.acquire a)
  release c := .answer (fun _ => ()) fun _ => enter (.release c)
  execute c q := .answer (fun entries => r.execute entries c q) fun a => enter (.execute c q a)
  stream c q n := .answer (fun entries => r.stream entries c q n) fun ks => enter (.stream c q n ks)
  begin c run s := .talk (fun entries => r.begin entries c s) run fun a => enter (.begin c s a)
  commit c run := .talk (fun entries => r.commit entries c) run fun a => enter (.commit c a)
  rollback c run := .talk (fun entries => r.rollback entries c) run fun a => enter (.rollback c a)
  savepoint c run name :=
    .talk (fun entries => r.savepoint entries c name) run fun a => enter (.savepoint c name a)
  rollbackTo c run name :=
    .talk (fun entries => r.rollbackTo entries c name) run fun a => enter (.rollbackTo c name a)
  releaseSavepoint c run name :=
    .talk (fun entries => r.releaseSavepoint entries c name) run
      fun a => enter (.releaseSavepoint c name a)
  destroy := .answer r.destroy fun a => enter (.destroy a)

end SqlTree
