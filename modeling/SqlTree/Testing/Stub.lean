import SqlTree.Database.Log
import SqlTree.Testing.Ledger

/-!
# Stubs

A stub is a driver without a database: rules say what it answers, and it keeps a record of what it
was asked.
-/

namespace SqlTree.Testing

/-- What to answer to statements that contain a text. -/
structure Rule where
  contains : String
  answer : Except Error QueryResult
  /-- How many chunks of a stream arrive before the connection breaks. -/
  breaksAfter : Option Nat := none

structure Stub where
  dialect : Dialect
  rules : List Rule := []
  /-- How many calls of `init` fail at first. -/
  failingInits : Nat := 0
  /-- Which connection cannot be acquired. -/
  failingAcquire : Option Nat := none
  /-- What the clock says. -/
  time : String := ""

/-- What a stub was asked. -/
structure Record where
  inits : Nat := 0
  acquired : Nat := 0
  released : Nat := 0
  destroyed : Nat := 0
  /-- The statements it was sent, last one first. -/
  sent : List (String × List Value) := []
  /-- The events of its log, last one first. -/
  events : List LogEvent := []
  /-- What answers statements that no rule fits, if anything does. -/
  ledger : Option Ledger := none

/-- A list cut into pieces of `size` items, or of one item. -/
def cut {α : Type} (size : Nat) : List α → List (List α)
  | [] => []
  | a :: as => (a :: as.take (size - 1)) :: cut size (as.drop (size - 1))
termination_by as => as.length
decreasing_by simp only [List.length_drop, List.length_cons]; omega

/-- The chunks in which an answer with a rule arrives. -/
def Rule.chunks (breaksAfter : Option Nat) (size : Nat) :
    Except Error QueryResult → List (Except Error QueryResult)
  | .error e => [.error e]
  | .ok r =>
    let all := (cut size r.rows).map fun rows => .ok { r with rows }
    match breaksAfter with
    | some n => all.take n ++ [.error (.connection (.message "stream broke"))]
    | none => all

namespace Stub

variable {m : Type → Type} [Monad m] [MonadStateOf Record m] (s : Stub)

def rule? (sql : String) : Option Rule :=
  s.rules.find? fun r => r.contains.isEmpty || Text.holds r.contains.toList sql.toList

/-- The answer to a statement, and what becomes of the record. -/
def answer (q : Compiled) (r : Record) : Except Error QueryResult × Record :=
  let r := { r with sent := (q.sql, q.parameters) :: r.sent }
  match s.rule? q.sql, r.ledger with
  | some rule, _ => (rule.answer, r)
  | none, some l =>
    let (a, l) := l.answer s.time q
    (.ok a, { r with ledger := some l })
  | none, none => (.ok {}, r)

def failure (activity : String) (n : Nat) : Error :=
  .connection (.message (activity ++ " " ++ toString n ++ " failed"))

def init : m (Except Error Unit) := do
  let n := (← getThe Record).inits
  modifyThe Record fun r => { r with inits := n + 1 }
  return if n < s.failingInits then .error (failure "init" n) else .ok ()

def acquire : m (Except Error Connection) := do
  let n := (← getThe Record).acquired
  modifyThe Record fun r => { r with acquired := n + 1 }
  return if s.failingAcquire = some n then .error (failure "acquire" n) else .ok ⟨n⟩

/-- The driver that answers for the stub. -/
def driver : Driver m where
  dialect := s.dialect
  init := s.init
  acquire := s.acquire
  release _ := modifyThe Record fun r => { r with released := r.released + 1 }
  execute _ q := modifyGetThe Record (s.answer q)
  stream _ q size := do
    let a ← modifyGetThe Record (s.answer q)
    return Rule.chunks ((s.rule? q.sql).bind Rule.breaksAfter) size a
  destroy := do
    modifyThe Record fun r => { r with destroyed := r.destroyed + 1 }
    return .ok ()

/-- A sink for log events that adds them to the record. -/
def sink (e : LogEvent) : m Unit := modifyThe Record fun r => { r with events := e :: r.events }

end Stub

end SqlTree.Testing
