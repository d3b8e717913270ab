import SqlTree.Build.Expression
import SqlTree.Read.DataType

/-!
# Column definitions

Columns of tables, with what constrains their values.
-/

namespace SqlTree

namespace References

def withDelete (r : References Node) (action : ReferentialAction) : References Node :=
  { r with onDelete := some action }

def withUpdate (r : References Node) (action : ReferentialAction) : References Node :=
  { r with onUpdate := some action }

end References

namespace ColumnDefinition

def begin (name dataType : String) : Except Error (ColumnDefinition Node) := do
  let column ← Read.column name
  return { column, dataType := ← Read.dataType dataType }

variable (p : ColumnDefinition Node)

def node : Node := ⟨.columnDefinition p⟩

/-- A default, written into the definition. -/
def defaultingTo (v : Operand) : ColumnDefinition Node :=
  { p with defaultTo := some ⟨.defaultValue v.inline⟩ }

def checked (c : Node) : ColumnDefinition Node :=
  { p with check := some ⟨.checkConstraint c none⟩ }

/-- A foreign key to a column given as `table.column`. -/
def referencing (target : String) : Except Error (ColumnDefinition Node) := do
  let (table, column) ← Read.foreignColumn target
  return { p with references := some ⟨.references { table, columns := [column] }⟩ }

/-- Changes the foreign key, which must be there. -/
def withReferences (f : References Node → References Node) : Except Error (ColumnDefinition Node) :=
  match p.references with
  | some ⟨.references r⟩ => .ok { p with references := some ⟨.references (f r)⟩ }
  | _ => .error (.validation (.noReferences (p.column.columnName?.getD "")))

def onDelete (action : String) : Except Error (ColumnDefinition Node) := do
  let a ← ReferentialAction.read action
  p.withReferences fun r => r.withDelete a

def onUpdate (action : String) : Except Error (ColumnDefinition Node) := do
  let a ← ReferentialAction.read action
  p.withReferences fun r => r.withUpdate a

def generatedBy (g : Generated Node) : ColumnDefinition Node :=
  { p with generated := some ⟨.generated g⟩ }

def generatedAs (e : Node) : ColumnDefinition Node :=
  p.generatedBy { always := true, expression := some e }

def identityAlways : ColumnDefinition Node := p.generatedBy { always := true, identity := true }

def identityByDefault : ColumnDefinition Node :=
  p.generatedBy { byDefault := true, identity := true }

/-- Generated values that are kept in the table. -/
def stored : ColumnDefinition Node :=
  match p.generated with
  | some ⟨.generated g⟩ => p.generatedBy { g with stored := true }
  | _ => p.generatedBy { stored := true }

end ColumnDefinition

end SqlTree
