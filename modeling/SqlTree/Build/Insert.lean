import SqlTree.Build.Filtered
import SqlTree.Build.Rows

/-!
# Inserts

An insert takes its rows from one source: rows given, a query, or the defaults of the columns.
-/

namespace SqlTree

namespace OnConflict

variable (p : OnConflict Node)

def onColumns (columns : List String) : Except Error (OnConflict Node) := do
  return { p with columns := p.columns ++ (← columns.mapM Read.column) }

def onConstraint (name : String) : Except Error (OnConflict Node) := do
  return { p with constraint := some (← Read.identifier name) }

def onExpression (n : Node) : OnConflict Node := { p with indexExpression := some n }

/-- Conflicts in an index of the rows that meet a condition. -/
def indexWhereCompare (left : Term) (operator : String) (right : Operand) :
    Except Error (OnConflict Node) := do
  return { p with indexWhere := some (.whereBoth p.indexWhere (← left.compare operator right)) }

def nothing : OnConflict Node := { p with doNothing := true }

def updating (pairs : List (String × Node)) : Except Error (OnConflict Node) := do
  return { p with updates := p.updates ++ (← Node.updates pairs), doNothing := false }

/-- Updates only the rows that meet a condition. -/
def updateWhereCompare (left : Term) (operator : String) (right : Operand) :
    Except Error (OnConflict Node) := do
  return { p with updateWhere := some (.whereBoth p.updateWhere (← left.compare operator right)) }

end OnConflict

namespace Insert

def begin (table : Node) (replaces : Bool) (withClause : Option Node) : Insert Node :=
  { into := some table, replace := replaces, withClause }

variable (p : Insert Node)

def node : Node := ⟨.insertQuery p⟩

def ofRows (rows : List GivenRow) : Except Error (Insert Node) :=
  if rows.isEmpty then .error (.validation .noInsertRows)
  else .ok { p with
    columns := GivenRow.columnNodes rows, values := some (GivenRow.values rows),
    defaultValues := false }

/-- Rows given as documents. -/
def ofDocuments (documents : List Json) : Except Error (Insert Node) := do
  p.ofRows (← documents.mapM GivenRow.ofJson)

def intoColumns (columns : List String) : Except Error (Insert Node) := do
  return { p with columns := ← columns.mapM Read.column }

/-- The rows of a query. -/
def ofQuery (query : Node) : Insert Node := { p with values := some query, defaultValues := false }

/-- One row of defaults. -/
def ofDefaults : Insert Node := { p with values := none, defaultValues := true }

def ignoring : Insert Node := { p with ignore := true }

def whenConflict (f : OnConflict Node → Except Error (OnConflict Node)) :
    Except Error (Insert Node) := do
  return { p with onConflict := some ⟨.onConflict (← f {})⟩ }

def whenDuplicate (pairs : List (String × Node)) : Except Error (Insert Node) := do
  return { p with onDuplicateKey := some ⟨.onDuplicateKey (← Node.updates pairs)⟩ }

def explained : Insert Node := { p with explain := some ⟨.explain none⟩ }

end Insert

end SqlTree
