import SqlTree.Build.Draft
import SqlTree.Build.Start

/-!
# Bookkeeping tables

One table holds the names of the executed migrations, another the row of the migration lock.  These
are the statements that make, read and change them.
-/

namespace SqlTree.Migrate

/-- The table of executed migrations. -/
def table : String := "quarry_migration"

/-- The table of the migration lock; locks that are no tables have its name too. -/
def lockTable : String := "quarry_migration_lock"

/-- The key of the only row in the lock table. -/
def lockKey : String := "migration_lock"

def text (s : String) : Operand := .value (.string s)

/-- The table of executed migrations, made unless it is there. -/
def createTable : Except Error Node := do
  let p ← Start.createTable table
  let p ← p.addColumn "name" "varchar(255)" fun c =>
    .ok { c with primaryKey := true, notNull := true }
  let p ← p.addColumn "timestamp" "varchar(255)" fun c => .ok { c with notNull := true }
  return CreateTable.node { p with ifNotExists := true }

/-- The table of the lock, made unless it is there. -/
def createLockTable : Except Error Node := do
  let p ← Start.createTable lockTable
  let p ← p.addColumn "id" "varchar(255)" fun c =>
    .ok { c with primaryKey := true, notNull := true }
  let p ← p.addColumn "is_locked" "integer" fun c =>
    .ok (ColumnDefinition.defaultingTo { c with notNull := true } (.value (.int 0)))
  return CreateTable.node { p with ifNotExists := true }

def selectLockRow : Except Error Node := do
  let p ← ({} : Start).selectFrom [.text lockTable]
  let p ← p.select [.text "id"]
  return (← Filtered.whereCompare p (.text "id") "=" (text lockKey)).node

def insertLockRow : Except Error Node := do
  let p ← ({} : Start).insertInto lockTable false
  return (← p.ofRows [[("id", .bound (.string lockKey)), ("is_locked", .bound (.int 0))]]).node

/-- The executed migrations in the order of their names. -/
def selectExecuted : Except Error Node := do
  let p ← ({} : Start).selectFrom [.text table]
  let p ← p.select [.text "name", .text "timestamp"]
  return (← p.orderedBy "name").node

def record (name time : String) : Except Error Node := do
  let p ← ({} : Start).insertInto table false
  return (← p.ofRows [[("name", .bound (.string name)), ("timestamp", .bound (.string time))]]).node

def unrecord (name : String) : Except Error Node := do
  let p ← ({} : Start).deleteFrom [.text table]
  return (← Filtered.whereCompare p (.text "name") "=" (text name)).node

end SqlTree.Migrate
