import SqlTree.Tree.Operator
import SqlTree.Tree.Keyword
import SqlTree.Value.Basic

/-!
# Shapes of nodes

The shape of a node is its kind together with its fields, with whatever stands for its children as
`α`.  A statement tree is a shape whose children are trees; a statement being rendered is a shape
whose children are already rendered.  `Shape.traverse` visits the children in the order in which
they are written, and knows which kind each position requires.
-/

namespace SqlTree

/-- Items of a list in parentheses: plain values, or expressions of their own. -/
inductive ListItems (α : Type) where
  | primitive (values : List Value)
  | expressions (nodes : List α)

/-- An aggregate call, with the clauses that may follow its arguments. -/
structure Aggregate (α : Type) where
  name : String
  arguments : List α := []
  distinct : Bool := false
  orderBy : Option α := none
  filter : Option α := none
  window : Option α := none

/-- What an insert does with a row that conflicts with another. -/
structure OnConflict (α : Type) where
  columns : List α := []
  constraint : Option α := none
  indexExpression : Option α := none
  indexWhere : Option α := none
  updates : List α := []
  updateWhere : Option α := none
  doNothing : Bool := false

/-- A select, clause by clause. -/
structure Select (α : Type) where
  fromClause : Option α := none
  selections : List α := []
  distinctOn : List α := []
  joins : List α := []
  groupBy : Option α := none
  orderBy : Option α := none
  whereClause : Option α := none
  frontModifiers : List α := []
  endModifiers : List α := []
  limit : Option α := none
  offset : Option α := none
  fetch : Option α := none
  top : Option α := none
  withClause : Option α := none
  having : Option α := none
  setOperations : List α := []
  explain : Option α := none

/-- An insert; without a table it is the action of a merge. -/
structure Insert (α : Type) where
  into : Option α := none
  columns : List α := []
  values : Option α := none
  returning : Option α := none
  onConflict : Option α := none
  onDuplicateKey : Option α := none
  withClause : Option α := none
  ignore : Bool := false
  replace : Bool := false
  defaultValues : Bool := false
  explain : Option α := none

/-- An update; without a table it is the action of a merge. -/
structure Update (α : Type) where
  table : Option α := none
  fromClause : Option α := none
  joins : List α := []
  whereClause : Option α := none
  updates : List α := []
  returning : Option α := none
  withClause : Option α := none
  limit : Option α := none
  explain : Option α := none

/-- A delete. -/
structure Delete (α : Type) where
  fromClause : α
  usingClause : Option α := none
  joins : List α := []
  whereClause : Option α := none
  returning : Option α := none
  withClause : Option α := none
  orderBy : Option α := none
  limit : Option α := none
  explain : Option α := none

/-- A merge with its branches. -/
structure Merge (α : Type) where
  into : α
  usingJoin : Option α := none
  branches : List α := []
  withClause : Option α := none

/-- A table definition. -/
structure CreateTable (α : Type) where
  table : α
  columns : List α := []
  constraints : List α := []
  temporary : Bool := false
  ifNotExists : Bool := false
  onCommit : Option OnCommitAction := none

/-- A column with its constraints. -/
structure ColumnDefinition (α : Type) where
  column : α
  dataType : α
  references : Option α := none
  primaryKey : Bool := false
  autoIncrement : Bool := false
  unique : Bool := false
  notNull : Bool := false
  unsigned : Bool := false
  nullsNotDistinct : Bool := false
  defaultTo : Option α := none
  check : Option α := none
  generated : Option α := none

/-- How a generated column gets its values. -/
structure Generated (α : Type) where
  byDefault : Bool := false
  always : Bool := false
  identity : Bool := false
  stored : Bool := false
  expression : Option α := none

/-- The columns a foreign key points to. -/
structure References (α : Type) where
  table : α
  columns : List α := []
  onDelete : Option ReferentialAction := none
  onUpdate : Option ReferentialAction := none

/-- An index definition. -/
structure CreateIndex (α : Type) where
  name : α
  table : Option α := none
  columns : List α := []
  unique : Bool := false
  ifNotExists : Bool := false
  method : Option String := none
  whereClause : Option α := none
  nullsNotDistinct : Bool := false

/-- A view definition. -/
structure CreateView (α : Type) where
  name : α
  columns : List α := []
  query : Option α := none
  orReplace : Bool := false
  temporary : Bool := false
  materialized : Bool := false
  ifNotExists : Bool := false

/-- Changes of a table. -/
structure AlterTable (α : Type) where
  table : α
  renameTo : Option α := none
  setSchema : Option α := none
  columnAlterations : List α := []
  addConstraint : Option α := none
  dropConstraint : Option α := none

/-- Changes of a column. -/
structure AlterColumn (α : Type) where
  column : α
  dataType : Option α := none
  setDefault : Option α := none
  dropDefault : Bool := false
  setNotNull : Bool := false
  dropNotNull : Bool := false

/-- A node with its children given as `α`. -/
inductive Shape (α : Type) where
  | identifier (name : String)
  | schemableIdentifier (schema : Option α) (identifier : α)
  | table (table : α)
  | column (column : α)
  | selectAll
  | reference (table : Option α) (column : α)
  | aliased (node name : α)
  | value (value : Value) (immediate : Bool)
  | valueList (items : ListItems α)
  | values (rows : List α)
  | defaultInsertValue
  | operator (operator : Operator)
  | binaryOperation (left operator right : α)
  | unaryOperation (operator operand : α)
  | and (left right : α)
  | or (left right : α)
  | parens (node : α)
  | raw (fragments : List String) (parameters : List α)
  | function (name : String) (arguments : List α)
  | aggregateFunction (parts : Aggregate α)
  | caseExpr (value : Option α) (branches : List α) (otherwise : Option α) (isStatement : Bool)
  | when (condition : α) (result : Option α)
  | cast (expression dataType : α)
  | window (partitionBy orderBy : Option α)
  | partitionBy (items : List α)
  | partitionByItem (item : α)
  | matched (negated bySource : Bool)
  | selection (selection : α)
  | fromClause (items : List α)
  | join (joinType : JoinType) (table : α) (condition : Option α)
  | onClause (condition : α)
  | whereClause (condition : α)
  | having (condition : α)
  | groupBy (items : List α)
  | groupByItem (item : α)
  | orderBy (items : List α)
  | orderByItem (item : α) (direction : Option OrderDirection) (nulls : Option NullsOrder)
  | limit (rows : α)
  | offset (rows : α)
  | fetch (rows : α) (modifier : FetchModifier)
  | top (rows : α) (modifier : Option TopModifier)
  | selectModifier (modifier : Option SelectModifier) (fragment : Option α) (tables : List α)
  | setOperation (operator : SetOperator) (expression : α) (all : Bool)
  | withClause (expressions : List α) (recursive : Bool)
  | commonTableExpression (name : α) (materialized : Option Bool) (expression : α)
  | commonTableExpressionName (table : α) (columns : List α)
  | returning (selections : List α)
  | columnUpdate (column value : α)
  | onConflict (parts : OnConflict α)
  | onDuplicateKey (updates : List α)
  | explain (options : Option α)
  | usingClause (tables : List α)
  | selectQuery (parts : Select α)
  | insertQuery (parts : Insert α)
  | updateQuery (parts : Update α)
  | deleteQuery (parts : Delete α)
  | mergeQuery (parts : Merge α)
  | createTable (parts : CreateTable α)
  | columnDefinition (parts : ColumnDefinition α)
  | dataType (dataType : String)
  | defaultValue (value : α)
  | generated (parts : Generated α)
  | references (parts : References α)
  | primaryKeyConstraint (columns : List α) (name : Option α)
  | uniqueConstraint (columns : List α) (name : Option α) (nullsNotDistinct : Bool)
  | checkConstraint (expression : α) (name : Option α)
  | foreignKeyConstraint (columns : List α) (references : α) (name : Option α)
  | dropTable (table : α) (ifExists cascade : Bool)
  | createIndex (parts : CreateIndex α)
  | dropIndex (name : α) (table : Option α) (ifExists cascade : Bool)
  | createSchema (schema : α) (ifNotExists : Bool)
  | dropSchema (schema : α) (ifExists cascade : Bool)
  | createView (parts : CreateView α)
  | dropView (name : α) (ifExists cascade materialized : Bool)
  | alterTable (parts : AlterTable α)
  | addColumn (column : α)
  | dropColumn (column : α)
  | renameColumn (column renameTo : α)
  | alterColumn (parts : AlterColumn α)
  | addConstraint (constraint : α)
  | dropConstraint (name : α) (ifExists cascade : Bool)

/-- What a position in a node admits: every kind, or one kind only. -/
inductive Slot where
  | any
  | only (kind : Kind)
  deriving DecidableEq, Repr

def Slot.admits : Slot → Kind → Bool
  | .any, _ => true
  | .only k, l => k == l

namespace Shape

variable {α β : Type}

def kind : Shape α → Kind
  | .identifier .. => .identifier
  | .schemableIdentifier .. => .schemableIdentifier
  | .table .. => .table
  | .column .. => .column
  | .selectAll .. => .selectAll
  | .reference .. => .reference
  | .aliased .. => .aliased
  | .value .. => .value
  | .valueList .. => .valueList
  | .values .. => .values
  | .defaultInsertValue .. => .defaultInsertValue
  | .operator .. => .operator
  | .binaryOperation .. => .binaryOperation
  | .unaryOperation .. => .unaryOperation
  | .and .. => .and
  | .or .. => .or
  | .parens .. => .parens
  | .raw .. => .raw
  | .function .. => .function
  | .aggregateFunction .. => .aggregateFunction
  | .caseExpr .. => .caseExpr
  | .when .. => .when
  | .cast .. => .cast
  | .window .. => .window
  | .partitionBy .. => .partitionBy
  | .partitionByItem .. => .partitionByItem
  | .matched .. => .matched
  | .selection .. => .selection
  | .fromClause .. => .fromClause
  | .join .. => .join
  | .onClause .. => .onClause
  | .whereClause .. => .whereClause
  | .having .. => .having
  | .groupBy .. => .groupBy
  | .groupByItem .. => .groupByItem
  | .orderBy .. => .orderBy
  | .orderByItem .. => .orderByItem
  | .limit .. => .limit
  | .offset .. => .offset
  | .fetch .. => .fetch
  | .top .. => .top
  | .selectModifier .. => .selectModifier
  | .setOperation .. => .setOperation
  | .withClause .. => .withClause
  | .commonTableExpression .. => .commonTableExpression
  | .commonTableExpressionName .. => .commonTableExpressionName
  | .returning .. => .returning
  | .columnUpdate .. => .columnUpdate
  | .onConflict .. => .onConflict
  | .onDuplicateKey .. => .onDuplicateKey
  | .explain .. => .explain
  | .usingClause .. => .usingClause
  | .selectQuery .. => .selectQuery
  | .insertQuery .. => .insertQuery
  | .updateQuery .. => .updateQuery
  | .deleteQuery .. => .deleteQuery
  | .mergeQuery .. => .mergeQuery
  | .createTable .. => .createTable
  | .columnDefinition .. => .columnDefinition
  | .dataType .. => .dataType
  | .defaultValue .. => .defaultValue
  | .generated .. => .generated
  | .references .. => .references
  | .primaryKeyConstraint .. => .primaryKeyConstraint
  | .uniqueConstraint .. => .uniqueConstraint
  | .checkConstraint .. => .checkConstraint
  | .foreignKeyConstraint .. => .foreignKeyConstraint
  | .dropTable .. => .dropTable
  | .createIndex .. => .createIndex
  | .dropIndex .. => .dropIndex
  | .createSchema .. => .createSchema
  | .dropSchema .. => .dropSchema
  | .createView .. => .createView
  | .dropView .. => .dropView
  | .alterTable .. => .alterTable
  | .addColumn .. => .addColumn
  | .dropColumn .. => .dropColumn
  | .renameColumn .. => .renameColumn
  | .alterColumn .. => .alterColumn
  | .addConstraint .. => .addConstraint
  | .dropConstraint .. => .dropConstraint

end Shape

section Traverse

variable {α β : Type} {m : Type → Type} [Monad m] (f : Slot → α → m β)

def ListItems.traverse : ListItems α → m (ListItems β)
  | .primitive vs => pure (.primitive vs)
  | .expressions ns => return .expressions (← ns.mapM (f .any))

def Aggregate.traverse (p : Aggregate α) : m (Aggregate β) := do
  let arguments ← p.arguments.mapM (f .any)
  let orderBy ← p.orderBy.mapM (f (.only .orderBy))
  let filter ← p.filter.mapM (f (.only .whereClause))
  let window ← p.window.mapM (f (.only .window))
  return ⟨p.name, arguments, p.distinct, orderBy, filter, window⟩

def OnConflict.traverse (p : OnConflict α) : m (OnConflict β) := do
  let columns ← p.columns.mapM (f (.only .column))
  let constraint ← p.constraint.mapM (f (.only .identifier))
  let indexExpression ← p.indexExpression.mapM (f .any)
  let indexWhere ← p.indexWhere.mapM (f (.only .whereClause))
  let updates ← p.updates.mapM (f (.only .columnUpdate))
  let updateWhere ← p.updateWhere.mapM (f (.only .whereClause))
  return ⟨columns, constraint, indexExpression, indexWhere, updates, updateWhere, p.doNothing⟩

def Select.traverse (p : Select α) : m (Select β) := do
  let explain ← p.explain.mapM (f (.only .explain))
  let withClause ← p.withClause.mapM (f (.only .withClause))
  let frontModifiers ← p.frontModifiers.mapM (f (.only .selectModifier))
  let distinctOn ← p.distinctOn.mapM (f .any)
  let top ← p.top.mapM (f (.only .top))
  let selections ← p.selections.mapM (f (.only .selection))
  let fromClause ← p.fromClause.mapM (f (.only .fromClause))
  let joins ← p.joins.mapM (f (.only .join))
  let whereClause ← p.whereClause.mapM (f (.only .whereClause))
  let groupBy ← p.groupBy.mapM (f (.only .groupBy))
  let having ← p.having.mapM (f (.only .having))
  let setOperations ← p.setOperations.mapM (f (.only .setOperation))
  let orderBy ← p.orderBy.mapM (f (.only .orderBy))
  let limit ← p.limit.mapM (f (.only .limit))
  let offset ← p.offset.mapM (f (.only .offset))
  let fetch ← p.fetch.mapM (f (.only .fetch))
  let endModifiers ← p.endModifiers.mapM (f (.only .selectModifier))
  return ⟨fromClause, selections, distinctOn, joins, groupBy, orderBy, whereClause,
    frontModifiers, endModifiers, limit, offset, fetch, top, withClause, having, setOperations,
    explain⟩

def Insert.traverse (p : Insert α) : m (Insert β) := do
  let explain ← p.explain.mapM (f (.only .explain))
  let withClause ← p.withClause.mapM (f (.only .withClause))
  let into ← p.into.mapM (f (.only .table))
  let columns ← p.columns.mapM (f (.only .column))
  let values ← p.values.mapM (f .any)
  let onConflict ← p.onConflict.mapM (f (.only .onConflict))
  let onDuplicateKey ← p.onDuplicateKey.mapM (f (.only .onDuplicateKey))
  let returning ← p.returning.mapM (f (.only .returning))
  return ⟨into, columns, values, returning, onConflict, onDuplicateKey, withClause, p.ignore,
    p.replace, p.defaultValues, explain⟩

def Update.traverse (p : Update α) : m (Update β) := do
  let explain ← p.explain.mapM (f (.only .explain))
  let withClause ← p.withClause.mapM (f (.only .withClause))
  let table ← p.table.mapM (f .any)
  let joins ← p.joins.mapM (f (.only .join))
  let updates ← p.updates.mapM (f (.only .columnUpdate))
  let fromClause ← p.fromClause.mapM (f (.only .fromClause))
  let whereClause ← p.whereClause.mapM (f (.only .whereClause))
  let limit ← p.limit.mapM (f (.only .limit))
  let returning ← p.returning.mapM (f (.only .returning))
  return ⟨table, fromClause, joins, whereClause, updates, returning, withClause, limit, explain⟩

def Delete.traverse (p : Delete α) : m (Delete β) := do
  let explain ← p.explain.mapM (f (.only .explain))
  let withClause ← p.withClause.mapM (f (.only .withClause))
  let fromClause ← f (.only .fromClause) p.fromClause
  let usingClause ← p.usingClause.mapM (f (.only .usingClause))
  let joins ← p.joins.mapM (f (.only .join))
  let whereClause ← p.whereClause.mapM (f (.only .whereClause))
  let orderBy ← p.orderBy.mapM (f (.only .orderBy))
  let limit ← p.limit.mapM (f (.only .limit))
  let returning ← p.returning.mapM (f (.only .returning))
  return ⟨fromClause, usingClause, joins, whereClause, returning, withClause, orderBy, limit,
    explain⟩

def Merge.traverse (p : Merge α) : m (Merge β) := do
  let withClause ← p.withClause.mapM (f (.only .withClause))
  let into ← f .any p.into
  let usingJoin ← p.usingJoin.mapM (f (.only .join))
  let branches ← p.branches.mapM (f (.only .when))
  return ⟨into, usingJoin, branches, withClause⟩

def CreateTable.traverse (p : CreateTable α) : m (CreateTable β) := do
  let table ← f (.only .table) p.table
  let columns ← p.columns.mapM (f (.only .columnDefinition))
  let constraints ← p.constraints.mapM (f .any)
  return ⟨table, columns, constraints, p.temporary, p.ifNotExists, p.onCommit⟩

def ColumnDefinition.traverse (p : ColumnDefinition α) : m (ColumnDefinition β) := do
  let column ← f (.only .column) p.column
  let dataType ← f .any p.dataType
  let references ← p.references.mapM (f (.only .references))
  let defaultTo ← p.defaultTo.mapM (f (.only .defaultValue))
  let check ← p.check.mapM (f (.only .checkConstraint))
  let generated ← p.generated.mapM (f (.only .generated))
  return ⟨column, dataType, references, p.primaryKey, p.autoIncrement, p.unique, p.notNull,
    p.unsigned, p.nullsNotDistinct, defaultTo, check, generated⟩

def Generated.traverse (p : Generated α) : m (Generated β) := do
  let expression ← p.expression.mapM (f .any)
  return ⟨p.byDefault, p.always, p.identity, p.stored, expression⟩

def References.traverse (p : References α) : m (References β) := do
  let table ← f (.only .table) p.table
  let columns ← p.columns.mapM (f (.only .column))
  return ⟨table, columns, p.onDelete, p.onUpdate⟩

def CreateIndex.traverse (p : CreateIndex α) : m (CreateIndex β) := do
  let name ← f (.only .identifier) p.name
  let table ← p.table.mapM (f (.only .table))
  let columns ← p.columns.mapM (f .any)
  let whereClause ← p.whereClause.mapM (f (.only .whereClause))
  return ⟨name, table, columns, p.unique, p.ifNotExists, p.method, whereClause,
    p.nullsNotDistinct⟩

def CreateView.traverse (p : CreateView α) : m (CreateView β) := do
  let name ← f (.only .schemableIdentifier) p.name
  let columns ← p.columns.mapM (f (.only .column))
  let query ← p.query.mapM (f .any)
  return ⟨name, columns, query, p.orReplace, p.temporary, p.materialized, p.ifNotExists⟩

def AlterTable.traverse (p : AlterTable α) : m (AlterTable β) := do
  let table ← f (.only .table) p.table
  let renameTo ← p.renameTo.mapM (f (.only .table))
  let setSchema ← p.setSchema.mapM (f (.only .identifier))
  let columnAlterations ← p.columnAlterations.mapM (f .any)
  let addConstraint ← p.addConstraint.mapM (f (.only .addConstraint))
  let dropConstraint ← p.dropConstraint.mapM (f (.only .dropConstraint))
  return ⟨table, renameTo, setSchema, columnAlterations, addConstraint, dropConstraint⟩

def AlterColumn.traverse (p : AlterColumn α) : m (AlterColumn β) := do
  let column ← f (.only .column) p.column
  let dataType ← p.dataType.mapM (f .any)
  let setDefault ← p.setDefault.mapM (f .any)
  return ⟨column, dataType, setDefault, p.dropDefault, p.setNotNull, p.dropNotNull⟩

/-- Applies `f` to the children in the order in which they are written. -/
def Shape.traverse : Shape α → m (Shape β)
  | .identifier a => pure (.identifier a)
  | .schemableIdentifier a b =>
    return .schemableIdentifier (← a.mapM (f (.only .identifier))) (← f (.only .identifier) b)
  | .table a => return .table (← f (.only .schemableIdentifier) a)
  | .column a => return .column (← f (.only .identifier) a)
  | .selectAll => pure .selectAll
  | .reference a b => return .reference (← a.mapM (f (.only .table))) (← f .any b)
  | .aliased a b => return .aliased (← f .any a) (← f .any b)
  | .value a b => pure (.value a b)
  | .valueList a => return .valueList (← a.traverse f)
  | .values a => return .values (← a.mapM (f (.only .valueList)))
  | .defaultInsertValue => pure .defaultInsertValue
  | .operator a => pure (.operator a)
  | .binaryOperation a b c =>
    return .binaryOperation (← f .any a) (← f (.only .operator) b) (← f .any c)
  | .unaryOperation a b => return .unaryOperation (← f (.only .operator) a) (← f .any b)
  | .and a b => return .and (← f .any a) (← f .any b)
  | .or a b => return .or (← f .any a) (← f .any b)
  | .parens a => return .parens (← f .any a)
  | .raw a b => return .raw a (← b.mapM (f .any))
  | .function a b => return .function a (← b.mapM (f .any))
  | .aggregateFunction p => return .aggregateFunction (← p.traverse f)
  | .caseExpr a b c d =>
    return .caseExpr (← a.mapM (f .any)) (← b.mapM (f (.only .when))) (← c.mapM (f .any)) d
  | .when a b => return .when (← f .any a) (← b.mapM (f .any))
  | .cast a b => return .cast (← f .any a) (← f .any b)
  | .window a b =>
    return .window (← a.mapM (f (.only .partitionBy))) (← b.mapM (f (.only .orderBy)))
  | .partitionBy a => return .partitionBy (← a.mapM (f (.only .partitionByItem)))
  | .partitionByItem a => return .partitionByItem (← f .any a)
  | .matched a b => pure (.matched a b)
  | .selection a => return .selection (← f .any a)
  | .fromClause a => return .fromClause (← a.mapM (f .any))
  | .join a b c => return .join a (← f .any b) (← c.mapM (f (.only .onClause)))
  | .onClause a => return .onClause (← f .any a)
  | .whereClause a => return .whereClause (← f .any a)
  | .having a => return .having (← f .any a)
  | .groupBy a => return .groupBy (← a.mapM (f (.only .groupByItem)))
  | .groupByItem a => return .groupByItem (← f .any a)
  | .orderBy a => return .orderBy (← a.mapM (f (.only .orderByItem)))
  | .orderByItem a b c => return .orderByItem (← f .any a) b c
  | .limit a => return .limit (← f .any a)
  | .offset a => return .offset (← f .any a)
  | .fetch a b => return .fetch (← f .any a) b
  | .top a b => return .top (← f .any a) b
  | .selectModifier a b c => return .selectModifier a (← b.mapM (f .any)) (← c.mapM (f .any))
  | .setOperation a b c => return .setOperation a (← f .any b) c
  | .withClause a b => return .withClause (← a.mapM (f (.only .commonTableExpression))) b
  | .commonTableExpression a b c =>
    return .commonTableExpression (← f (.only .commonTableExpressionName) a) b (← f .any c)
  | .commonTableExpressionName a b =>
    return .commonTableExpressionName (← f (.only .table) a) (← b.mapM (f (.only .column)))
  | .returning a => return .returning (← a.mapM (f (.only .selection)))
  | .columnUpdate a b => return .columnUpdate (← f .any a) (← f .any b)
  | .onConflict p => return .onConflict (← p.traverse f)
  | .onDuplicateKey a => return .onDuplicateKey (← a.mapM (f (.only .columnUpdate)))
  | .explain a => return .explain (← a.mapM (f .any))
  | .usingClause a => return .usingClause (← a.mapM (f .any))
  | .selectQuery p => return .selectQuery (← p.traverse f)
  | .insertQuery p => return .insertQuery (← p.traverse f)
  | .updateQuery p => return .updateQuery (← p.traverse f)
  | .deleteQuery p => return .deleteQuery (← p.traverse f)
  | .mergeQuery p => return .mergeQuery (← p.traverse f)
  | .createTable p => return .createTable (← p.traverse f)
  | .columnDefinition p => return .columnDefinition (← p.traverse f)
  | .dataType a => pure (.dataType a)
  | .defaultValue a => return .defaultValue (← f .any a)
  | .generated p => return .generated (← p.traverse f)
  | .references p => return .references (← p.traverse f)
  | .primaryKeyConstraint a b =>
    return .primaryKeyConstraint (← a.mapM (f (.only .column))) (← b.mapM (f (.only .identifier)))
  | .uniqueConstraint a b c =>
    return .uniqueConstraint (← a.mapM (f (.only .column))) (← b.mapM (f (.only .identifier))) c
  | .checkConstraint a b => return .checkConstraint (← f .any a) (← b.mapM (f (.only .identifier)))
  | .foreignKeyConstraint a b c =>
    return .foreignKeyConstraint (← a.mapM (f (.only .column))) (← f (.only .references) b)
      (← c.mapM (f (.only .identifier)))
  | .dropTable a b c => return .dropTable (← f (.only .table) a) b c
  | .createIndex p => return .createIndex (← p.traverse f)
  | .dropIndex a b c d =>
    return .dropIndex (← f (.only .schemableIdentifier) a) (← b.mapM (f (.only .table))) c d
  | .createSchema a b => return .createSchema (← f (.only .identifier) a) b
  | .dropSchema a b c => return .dropSchema (← f (.only .identifier) a) b c
  | .createView p => return .createView (← p.traverse f)
  | .dropView a b c d => return .dropView (← f (.only .schemableIdentifier) a) b c d
  | .alterTable p => return .alterTable (← p.traverse f)
  | .addColumn a => return .addColumn (← f (.only .columnDefinition) a)
  | .dropColumn a => return .dropColumn (← f (.only .column) a)
  | .renameColumn a b => return .renameColumn (← f (.only .column) a) (← f (.only .column) b)
  | .alterColumn p => return .alterColumn (← p.traverse f)
  | .addConstraint a => return .addConstraint (← f .any a)
  | .dropConstraint a b c => return .dropConstraint (← f (.only .identifier) a) b c

end Traverse

namespace Shape

variable {α β : Type}

/-- The shape with `f` applied to every child. -/
def map (f : α → β) (s : Shape α) : Shape β :=
  Id.run (s.traverse fun _ a => (pure (f a) : Id β))

end Shape

end SqlTree
