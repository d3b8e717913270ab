import SqlTree.Build.Clause

/-!
# Aggregates

Aggregate calls with the clauses that may follow their arguments.
-/

namespace SqlTree

/-- The rows an aggregate is computed over. -/
structure Window where
  partitionBy : Option Node := none
  orderBy : Option Node := none

namespace Window

def partitionedBy (w : Window) (ts : List Term) : Except Error Window := do
  let ns ← ts.mapM Term.reference
  return { w with partitionBy := some (.morePartitions w.partitionBy ns) }

def orderedBy (w : Window) (order : String) : Except Error Window := do
  let n ← Read.orderBy order
  return { w with orderBy := some (.moreOrder w.orderBy [n]) }

def node (w : Window) : Node := ⟨.window w.partitionBy w.orderBy⟩

end Window

namespace Aggregate

/-- An aggregate of a single column. -/
def of (name : String) (t : Term) : Except Error (Aggregate Node) := do
  return { name, arguments := [← t.reference] }

/-- The number of rows. -/
def countAll : Aggregate Node := { name := "count", arguments := [⟨.selectAll⟩] }

def distinctValues (a : Aggregate Node) : Aggregate Node := { a with distinct := true }

def filtered (a : Aggregate Node) (c : Node) : Aggregate Node :=
  { a with filter := some (.whereBoth a.filter c) }

def orderedBy (a : Aggregate Node) (order : String) : Except Error (Aggregate Node) := do
  let n ← Read.orderBy order
  return { a with orderBy := some (.moreOrder a.orderBy [n]) }

def overWindow (a : Aggregate Node) (w : Window) : Aggregate Node :=
  { a with window := some w.node }

def node (a : Aggregate Node) : Node := ⟨.aggregateFunction a⟩

end Aggregate

end SqlTree
