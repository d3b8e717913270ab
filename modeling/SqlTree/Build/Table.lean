import SqlTree.Build.Column

/-!
# Table definitions

Tables made and changed, and the constraints on their rows.
-/

namespace SqlTree

namespace NamedConstraint

def primaryKey (name : String) (columns : List String) : Except Error Node := do
  let cs ← columns.mapM Read.column
  return ⟨.primaryKeyConstraint cs (some (← Read.identifier name))⟩

def unique (name : String) (columns : List String) : Except Error Node := do
  let cs ← columns.mapM Read.column
  return ⟨.uniqueConstraint cs (some (← Read.identifier name)) false⟩

def check (name : String) (c : Node) : Except Error Node := do
  return ⟨.checkConstraint c (some (← Read.identifier name))⟩

end NamedConstraint

/-- A foreign key of a table under its name. -/
structure ForeignKey where
  columns : List Node
  target : References Node
  name : Node

namespace ForeignKey

def begin (name : String) (columns : List String) (table : String) (targets : List String) :
    Except Error ForeignKey := do
  let columns ← columns.mapM Read.column
  let table ← Read.table table
  let targets ← targets.mapM Read.column
  return { columns, target := { table, columns := targets }, name := ← Read.identifier name }

variable (k : ForeignKey)

def onDelete (action : String) : Except Error ForeignKey := do
  let a ← ReferentialAction.read action
  return { k with target := k.target.withDelete a }

def onUpdate (action : String) : Except Error ForeignKey := do
  let a ← ReferentialAction.read action
  return { k with target := k.target.withUpdate a }

def node : Node := ⟨.foreignKeyConstraint k.columns ⟨.references k.target⟩ (some k.name)⟩

end ForeignKey

namespace CreateTable

variable (p : CreateTable Node)

def node : Node := ⟨.createTable p⟩

def addColumn (name dataType : String)
    (f : ColumnDefinition Node → Except Error (ColumnDefinition Node)) :
    Except Error (CreateTable Node) := do
  let c ← f (← ColumnDefinition.begin name dataType)
  return { p with columns := p.columns ++ [c.node] }

def addConstraint (c : Node) : CreateTable Node := { p with constraints := p.constraints ++ [c] }

def onCommitDo (action : String) : Except Error (CreateTable Node) := do
  return { p with onCommit := some (← OnCommitAction.read action) }

end CreateTable

namespace AlterColumn

variable (p : AlterColumn Node)

def toType (dataType : String) : Except Error (AlterColumn Node) := do
  return { p with dataType := some (← Read.dataType dataType) }

/-- A default, written into the statement. -/
def toDefault (v : Operand) : AlterColumn Node := { p with setDefault := some v.inline }

end AlterColumn

namespace AlterTable

variable (p : AlterTable Node)

def node : Node := ⟨.alterTable p⟩

def renamedTo (table : String) : Except Error (AlterTable Node) := do
  return { p with renameTo := some (← Read.table table) }

def movedTo (schema : String) : Except Error (AlterTable Node) := do
  return { p with setSchema := some (← Read.identifier schema) }

def alteration (n : Node) : AlterTable Node :=
  { p with columnAlterations := p.columnAlterations ++ [n] }

def addColumn (name dataType : String)
    (f : ColumnDefinition Node → Except Error (ColumnDefinition Node)) :
    Except Error (AlterTable Node) := do
  let c ← f (← ColumnDefinition.begin name dataType)
  return p.alteration ⟨.addColumn c.node⟩

def dropColumn (name : String) : Except Error (AlterTable Node) := do
  return p.alteration ⟨.dropColumn (← Read.column name)⟩

def renameColumn (name newName : String) : Except Error (AlterTable Node) := do
  let column ← Read.column name
  return p.alteration ⟨.renameColumn column (← Read.column newName)⟩

/-- Changes of a column, which `f` chooses. -/
def alterColumn (name : String) (f : AlterColumn Node → Except Error (AlterColumn Node)) :
    Except Error (AlterTable Node) := do
  let column ← Read.column name
  return p.alteration ⟨.alterColumn (← f { column })⟩

/-- Adds a constraint, in place of one added before. -/
def withConstraint (c : Node) : AlterTable Node :=
  { p with addConstraint := some ⟨.addConstraint c⟩ }

/-- Drops a constraint, in place of one dropped before. -/
def dropping (name : String) (ifExists : Bool) : Except Error (AlterTable Node) := do
  return { p with dropConstraint := some ⟨.dropConstraint (← Read.identifier name) ifExists false⟩ }

/-- Drops also what depends on the constraint that is dropped. -/
def cascading : AlterTable Node :=
  match p.dropConstraint with
  | some ⟨.dropConstraint name ifExists _⟩ =>
    { p with dropConstraint := some ⟨.dropConstraint name ifExists true⟩ }
  | _ => p

end AlterTable

end SqlTree
