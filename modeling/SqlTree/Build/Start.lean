import SqlTree.Build.Definition
import SqlTree.Build.Index
import SqlTree.Build.Merge
import SqlTree.Build.Select
import SqlTree.Build.Table
import SqlTree.Build.View

/-!
# Starting statements

Where statements start: with the tables of a with clause, if there is one, and a table or a name of
their own.
-/

namespace SqlTree

/-- The with clause of the statements to come. -/
structure Start where
  withClause : Option Node := none

namespace Start

variable (o : Start)

/-- The clause with one more query; once recursive, it stays so. -/
def extended (clause : Option Node) (query : Node) (recursive : Bool) : Node :=
  match clause with
  | some ⟨.withClause qs r⟩ => ⟨.withClause (qs ++ [query]) (r || recursive)⟩
  | _ => ⟨.withClause [query] recursive⟩

/-- Defines a table by a query. -/
def withQuery (name : String) (query : Node) (materialized : Option Bool) (recursive : Bool) :
    Except Error Start := do
  let n ← Read.commonTableName name
  return ⟨some (extended o.withClause ⟨.commonTableExpression n materialized query⟩ recursive)⟩

def selectFrom (tables : List Term) : Except Error (Select Node) := do
  return .begin (some (← tables.mapM Term.table)) o.withClause

def selectWithoutTable : Select Node := .begin none o.withClause

def insertInto (table : String) (replaces : Bool) : Except Error (Insert Node) := do
  return .begin (← Read.table table) replaces o.withClause

def updateTable (table : Term) : Except Error (Update Node) := do
  return .begin (← table.table) o.withClause

def deleteFrom (tables : List Term) : Except Error (Delete Node) := do
  return .begin (← tables.mapM Term.table) o.withClause

def mergeInto (table : Term) : Except Error (Merge Node) := do
  return .begin (← table.table) o.withClause

def createTable (name : String) : Except Error (CreateTable Node) := do
  return { table := ← Read.table name }

def alterTable (name : String) : Except Error (AlterTable Node) := do
  return { table := ← Read.table name }

def createIndex (name : String) : Except Error (CreateIndex Node) := do
  return { name := ← Read.identifier name }

def createView (name : String) : Except Error (CreateView Node) := do
  return { name := ← Read.schemable name }

def dropTable (name : String) : Except Error Node := do return .dropTable (← Read.table name)

def dropIndex (name : String) : Except Error Node := do return .dropIndex (← Read.schemable name)

def createSchema (name : String) : Except Error Node := do
  return .createSchema (← Read.identifier name)

def dropSchema (name : String) : Except Error Node := do
  return .dropSchema (← Read.identifier name)

def dropView (name : String) : Except Error Node := do return .dropView (← Read.schemable name)

end Start

end SqlTree
