import SqlTree.Build.Expression

/-!
# Clauses

Clauses that grow call by call: conditions joined to those before, and lists that get longer.
-/

namespace SqlTree.Node

/-- The condition of a filter, whichever clause it stands in. -/
def condition? : Node → Option Node
  | ⟨.whereClause c⟩ => some c
  | ⟨.having c⟩ => some c
  | ⟨.onClause c⟩ => some c
  | _ => none

/-- The condition of a clause with one more joined to it. -/
def extended (join : Node → Node → Node) (clause : Option Node) (c : Node) : Node :=
  match clause.bind condition? with
  | some before => join before c
  | none => c

def whereBoth (clause : Option Node) (c : Node) : Node := ⟨.whereClause (extended both clause c)⟩

def whereEither (clause : Option Node) (c : Node) : Node :=
  ⟨.whereClause (extended either clause c)⟩

def havingBoth (clause : Option Node) (c : Node) : Node := ⟨.having (extended both clause c)⟩

def havingEither (clause : Option Node) (c : Node) : Node := ⟨.having (extended either clause c)⟩

def onBoth (clause : Option Node) (c : Node) : Node := ⟨.onClause (extended both clause c)⟩

def onEither (clause : Option Node) (c : Node) : Node := ⟨.onClause (extended either clause c)⟩

/-- The items of a clause that is a list. -/
def items : Node → List Node
  | ⟨.fromClause ns⟩ => ns
  | ⟨.usingClause ns⟩ => ns
  | ⟨.groupBy ns⟩ => ns
  | ⟨.orderBy ns⟩ => ns
  | ⟨.partitionBy ns⟩ => ns
  | ⟨.returning ns⟩ => ns
  | _ => []

/-- The items of a clause and further ones behind them. -/
def more (clause : Option Node) (ns : List Node) : List Node :=
  (clause.map items).getD [] ++ ns

def moreFrom (clause : Option Node) (ns : List Node) : Node := ⟨.fromClause (more clause ns)⟩

def moreUsing (clause : Option Node) (ns : List Node) : Node := ⟨.usingClause (more clause ns)⟩

def moreGroups (clause : Option Node) (ns : List Node) : Node :=
  ⟨.groupBy (more clause (ns.map fun n => ⟨.groupByItem n⟩))⟩

def moreOrder (clause : Option Node) (ns : List Node) : Node := ⟨.orderBy (more clause ns)⟩

def morePartitions (clause : Option Node) (ns : List Node) : Node :=
  ⟨.partitionBy (more clause (ns.map fun n => ⟨.partitionByItem n⟩))⟩

def moreReturning (clause : Option Node) (ns : List Node) : Node :=
  ⟨.returning (more clause (ns.map fun n => ⟨.selection n⟩))⟩

/-- An item of an order by. -/
def ordered (n : Node) (direction : Option OrderDirection) : Node := ⟨.orderByItem n direction none⟩

/-- The item with a place for nulls. -/
def withNulls (n : Node) (nulls : NullsOrder) : Node :=
  match n with
  | ⟨.orderByItem item direction _⟩ => ⟨.orderByItem item direction (some nulls)⟩
  | n => n

/-- New values for columns, the columns without a table. -/
def updates (pairs : List (String × Node)) : Except Error (List Node) :=
  pairs.mapM fun (column, value) => do return ⟨.columnUpdate (← Read.column column) value⟩

end SqlTree.Node
