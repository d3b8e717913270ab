import SqlTree.Build.Draft
import SqlTree.Database.Handle

/-!
# Outcomes

What statements of each kind answer, and the ways to run a draft.
-/

namespace SqlTree

/-- The answer to a statement, by its kind. -/
inductive Outcome where
  | rows (rows : List Row)
  | inserted (insertId : Option Int) (count : Option Nat) (rows : List Row)
  | updated (count : Nat) (changed : Option Nat) (rows : List Row)
  | deleted (count : Nat) (rows : List Row)
  | merged (changed : Option Nat)
  | done

/-- The rows a statement applied to; if the database does not tell, those it returned. -/
def QueryResult.count (r : QueryResult) : Nat := r.affected.getD r.rows.length

def Draft.outcome (d : Draft) (r : QueryResult) : Outcome :=
  match d with
  | .select _ => .rows r.rows
  | .insert _ => .inserted r.insertId r.affected r.rows
  | .update _ => .updated r.count r.changed r.rows
  | .delete _ => .deleted r.count r.rows
  | .merge _ => .merged r.affected
  | _ => .done

/-- The statement of a draft; there is none in the middle of a branch. -/
def Draft.statement (d : Draft) : Except Error Node :=
  match d.node? with
  | some n => .ok n
  | none => .error .unreadable

/-- The statement of a draft that can be run: a merge needs a source. -/
def Draft.runnable (d : Draft) : Except Error Node :=
  match d with
  | .merge p => if p.usingJoin.isNone then .error (.validation .noMergeSource) else .ok p.node
  | d => d.statement

namespace Database

variable {m : Type → Type} [Monad m] (db : Database m)

/-- Runs a draft and answers by its kind. -/
def execute (d : Draft) : Action m Outcome := do
  let r ← db.run (← Action.ofExcept d.runnable)
  return d.outcome r

def first? (n : Node) : Action m (Option Row) := do return (← db.run n).rows.head?

/-- The first row; without one, an error made from the statement that was sent. -/
def firstOrElse (n : Node) (e : Node → Error) : Action m Row := do
  let q ← Action.ofExcept (db.compile n)
  match (← db.send q).rows.head? with
  | some row => return row
  | none => throw (e q.query)

def firstOrThrow (n : Node) : Action m Row := db.firstOrElse n fun _ => .noResult

/-- The rows as values of a type, all of which must be readable. -/
def rowsAs {α : Type} (read : Row → Option α) (n : Node) : Action m (List α) := do
  match (← db.run n).rows.mapM read with
  | some xs => return xs
  | none => throw .unreadable

end Database

end SqlTree
