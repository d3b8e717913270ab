import SqlTree.Database.Driver

/-!
# Query logs

Events for statements that were run, given to whoever wants events of their level.
-/

namespace SqlTree

inductive LogLevel where
  | query
  | error
  deriving DecidableEq, Repr, Inhabited

namespace LogLevel

def name : LogLevel → String
  | .query => "query"
  | .error => "error"

instance : Named LogLevel := ⟨[.query, .error], name⟩

end LogLevel

/-- A statement that was run, with its error if it failed. -/
structure LogEvent where
  sql : String
  parameters : List Value
  error : Option Error

def LogEvent.level (e : LogEvent) : LogLevel := if e.error.isSome then .error else .query

structure Log (m : Type → Type) where
  levels : List LogLevel
  sink : LogEvent → m Unit

namespace Log

variable {m : Type → Type} [Monad m]

/-- A log of some levels; there is none without a level. -/
def of? (levels : List LogLevel) (sink : LogEvent → m Unit) : Option (Log m) :=
  if levels.isEmpty then none else some ⟨levels, sink⟩

/-- A log that takes every event. -/
def callback (sink : LogEvent → m Unit) : Log m := ⟨[.query, .error], sink⟩

/-- The event of a statement that has been answered. -/
def event {α : Type} (q : Compiled) (r : Except Error α) : LogEvent :=
  ⟨q.sql, q.parameters, match r with
    | .ok _ => none
    | .error e => some e⟩

def record {α : Type} (log : Option (Log m)) (q : Compiled) (r : Except Error α) : m Unit :=
  match log with
  | some l => if l.levels.contains (event q r).level then l.sink (event q r) else pure ()
  | none => pure ()

end Log

end SqlTree
