import SqlTree.Build.Filtered

/-!
# Selects

A select, put together clause by clause.  Lists grow, single clauses are replaced.
-/

namespace SqlTree.Select

/-- A select of nothing yet from some tables, with the tables of a with clause. -/
def begin (tables : Option (List Node)) (withClause : Option Node) : Select Node :=
  { fromClause := tables.map fun ts => ⟨.fromClause ts⟩, withClause }

variable (p : Select Node)

def node : Node := ⟨.selectQuery p⟩

def selectNodes (ns : List Node) : Select Node :=
  { p with selections := p.selections ++ ns.map fun n => ⟨.selection n⟩ }

def select (ts : List Term) : Except Error (Select Node) := do
  return p.selectNodes (← ts.mapM Term.selection)

def selectAll : Select Node := p.selectNodes [⟨.selectAll⟩]

def selectAllFrom (table : String) : Except Error (Select Node) := do
  return p.selectNodes [⟨.reference (some (← Read.table table)) ⟨.selectAll⟩⟩]

def clearSelect : Select Node := { p with selections := [] }

def fromNodes (ns : List Node) : Select Node :=
  { p with fromClause := some (.moreFrom p.fromClause ns) }

def fromTables (ts : List Term) : Except Error (Select Node) := do
  return p.fromNodes (← ts.mapM Term.table)

def front (m : Node) : Select Node := { p with frontModifiers := p.frontModifiers ++ [m] }

def back (m : Node) : Select Node := { p with endModifiers := p.endModifiers ++ [m] }

/-- A modifier, in front of the selections if it is about distinct rows. -/
def modifier (m : SelectModifier) : Select Node :=
  let n : Node := ⟨.selectModifier (some m) none []⟩
  if m = .distinct then p.front n else p.back n

/-- Locks the rows of the tables named. -/
def forUpdateOf (tables : List String) : Except Error (Select Node) := do
  return p.back ⟨.selectModifier (some .forUpdate) none (← tables.mapM Read.table)⟩

def modifyFront (n : Node) : Select Node := p.front ⟨.selectModifier none (some n) []⟩

def modifyBack (n : Node) : Select Node := p.back ⟨.selectModifier none (some n) []⟩

def distinctNodes (ns : List Node) : Select Node := { p with distinctOn := p.distinctOn ++ ns }

/-- One row for each combination of values of the columns. -/
def distinctRowsOn (ts : List Term) : Except Error (Select Node) := do
  return p.distinctNodes (← ts.mapM Term.reference)

def groupNodes (ns : List Node) : Select Node :=
  { p with groupBy := some (.moreGroups p.groupBy ns) }

def groupedBy (ts : List Term) : Except Error (Select Node) := do
  return p.groupNodes (← ts.mapM Term.reference)

def clearGroups : Select Node := { p with groupBy := none }

/-- Keeps the groups that also meet the condition. -/
def havingNode (c : Node) : Select Node := { p with having := some (.havingBoth p.having c) }

def havingCompare (left : Term) (operator : String) (right : Operand) :
    Except Error (Select Node) := do
  return p.havingNode (← left.compare operator right)

def havingColumns (left : Term) (operator : String) (right : Term) :
    Except Error (Select Node) := do
  return p.havingNode (← left.relate operator right)

def clearHaving : Select Node := { p with having := none }

def orderItem (n : Node) : Select Node := { p with orderBy := some (.moreOrder p.orderBy [n]) }

def orderedBy (order : String) : Except Error (Select Node) := do
  return p.orderItem (← Read.orderBy order)

def orderedWithNulls (order : String) (nulls : NullsOrder) : Except Error (Select Node) := do
  return p.orderItem ((← Read.orderBy order).withNulls nulls)

def orderedByNode (n : Node) (direction : Option OrderDirection) : Select Node :=
  p.orderItem (n.ordered direction)

def clearOrder : Select Node := { p with orderBy := none }

def limited (rows : Operand) : Select Node := { p with limit := some ⟨.limit rows.bound⟩ }

def clearLimit : Select Node := { p with limit := none }

def skipping (rows : Operand) : Select Node := { p with offset := some ⟨.offset rows.bound⟩ }

def clearOffset : Select Node := { p with offset := none }

/-- At most that many rows, by a fetch clause. -/
def fetching (rows : Operand) (modifier : String) : Except Error (Select Node) := do
  return { p with fetch := some ⟨.fetch rows.bound (← FetchModifier.read modifier)⟩ }

/-- At most that many rows, by a top clause. -/
def toppedAt (rows : UInt32) (modifier : Option String) : Except Error (Select Node) := do
  let m ← modifier.mapM TopModifier.read
  return { p with top := some ⟨.top (.literal (.int (Int64.ofNat rows.toNat))) m⟩ }

/-- Combines the rows with those of another query. -/
def combined (op : SetOperator) (query : Node) (all : Bool) : Select Node :=
  { p with setOperations := p.setOperations ++ [⟨.setOperation op query all⟩] }

def explained (options : Option Node) : Select Node := { p with explain := some ⟨.explain options⟩ }

end SqlTree.Select
