import SqlTree.Build.Filtered

/-!
# Updates and deletes

Statements that change or remove the rows of tables that are there.
-/

namespace SqlTree

/-- A new value for a column, which may be qualified. -/
def columnUpdate (column : String) (value : Node) : Except Error Node := do
  return ⟨.columnUpdate (← Read.reference column) value⟩

namespace Update

def begin (table : Node) (withClause : Option Node) : Update Node :=
  { table := some table, withClause }

variable (p : Update Node)

def node : Node := ⟨.updateQuery p⟩

def setAll (pairs : List (String × Node)) : Except Error (Update Node) := do
  let ns ← pairs.mapM fun (column, value) => columnUpdate column value
  return { p with updates := p.updates ++ ns }

def set (column : String) (value : Operand) : Except Error (Update Node) :=
  p.setAll [(column, value.bound)]

/-- New values given as the members of a document. -/
def setDocument : Json → Except Error (Update Node)
  | .object ms => p.setAll (ms.map fun (k, j) => (k, .bound (.ofJson j)))
  | j => .error (.validation (.updateValues j.compact))

def fromTables (ts : List Term) : Except Error (Update Node) := do
  return { p with fromClause := some (.moreFrom p.fromClause (← ts.mapM Term.table)) }

def limited (rows : Operand) : Update Node := { p with limit := some ⟨.limit rows.bound⟩ }

def explained : Update Node := { p with explain := some ⟨.explain none⟩ }

end Update

namespace Delete

def begin (tables : List Node) (withClause : Option Node) : Delete Node :=
  { fromClause := ⟨.fromClause tables⟩, withClause }

variable (p : Delete Node)

def node : Node := ⟨.deleteQuery p⟩

def usingTables (ts : List Term) : Except Error (Delete Node) := do
  return { p with usingClause := some (.moreUsing p.usingClause (← ts.mapM Term.table)) }

def orderItem (n : Node) : Delete Node := { p with orderBy := some (.moreOrder p.orderBy [n]) }

def orderedBy (order : String) : Except Error (Delete Node) := do
  return p.orderItem (← Read.orderBy order)

def orderedByNode (n : Node) (direction : Option OrderDirection) : Delete Node :=
  p.orderItem (n.ordered direction)

def limited (rows : Operand) : Delete Node := { p with limit := some ⟨.limit rows.bound⟩ }

def explained : Delete Node := { p with explain := some ⟨.explain none⟩ }

end Delete

end SqlTree
