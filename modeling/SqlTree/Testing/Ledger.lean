import SqlTree.Migrate.Tables
import SqlTree.Render.Compile
import SqlTree.Result
import SqlTree.Text.Split

/-!
# Ledgers

A ledger answers the statements of a migrator as a database with its tables would, rollbacks
included.  Statements are recognized by their text.
-/

namespace SqlTree.Testing

/-- The rows of the bookkeeping tables. -/
structure Books where
  /-- Names and times of the executed migrations. -/
  executed : List (String × Json) := []
  hasLockRow : Bool := false
  deriving Repr

/-- Books, and the ones that a rollback brings back. -/
structure Ledger where
  books : Books := {}
  saved : Option Books := none
  deriving Repr

/-- Whether a statement starts with a word. -/
def begins (word sql : String) : Bool := word.toList.isPrefixOf sql.toList

namespace Books

variable (b : Books)

/-- The rows of the executed migrations in the order of their names. -/
def rows : List Row :=
  (b.executed.mergeSort fun x y => decide (x.1 ≤ y.1)).map fun (name, time) =>
    [("name", .string name), ("timestamp", time)]

/-- The first parameter, where it is a text. -/
def key : List Value → String
  | .string s :: _ => s
  | _ => ""

/-- The answer to a statement on the table of the lock. -/
def answerLock (sql : String) : QueryResult × Books :=
  if begins "insert" sql then ({}, { b with hasLockRow := true })
  else if ["select \"id\"", "select \x60id\x60", "select [id]"].any (begins · sql) then
    ({ rows := if b.hasLockRow then [[("id", .string Migrate.lockKey)]] else [] }, b)
  else if Text.holds "get_lock".toList sql.toList then
    ({ rows := [[("acquired", .int 1)]] }, b)
  else ({}, b)

/-- The answer to a statement on the table of executed migrations; `time` is when it is sent. -/
def answerTable (time sql : String) (parameters : List Value) : QueryResult × Books :=
  if begins "insert" sql then
    ({}, { b with executed := b.executed ++ [(key parameters, .string time)] })
  else if begins "delete" sql then
    ({}, { b with executed := b.executed.filter fun x => x.1 != key parameters })
  else if begins "select" sql then ({ rows := b.rows }, b)
  else ({}, b)

end Books

namespace Ledger

/-- The ledger of a database that was migrated before, or never. -/
def ofExecuted (executed : List (String × Json)) : Ledger :=
  { books := ⟨executed, !executed.isEmpty⟩ }

variable (l : Ledger)

def answer (time : String) (q : Compiled) : QueryResult × Ledger :=
  if q.sql = "begin" ∨ q.sql = "begin transaction" then ({}, { l with saved := some l.books })
  else if q.sql = "rollback" then
    ({}, { books := l.saved.getD l.books, saved := none })
  else if Text.holds Migrate.lockTable.toList q.sql.toList then
    let (r, b) := l.books.answerLock q.sql
    (r, { l with books := b })
  else if Text.holds Migrate.table.toList q.sql.toList then
    let (r, b) := l.books.answerTable time q.sql q.parameters
    (r, { l with books := b })
  else ({}, l)

end Ledger

end SqlTree.Testing
