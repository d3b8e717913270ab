/-!
# Kinds of nodes

One kind for each form a node of a statement tree can take, with its name.
-/

namespace SqlTree

inductive Kind where
  | identifier
  | schemableIdentifier
  | table
  | column
  | selectAll
  | reference
  | aliased
  | value
  | valueList
  | values
  | defaultInsertValue
  | operator
  | binaryOperation
  | unaryOperation
  | and
  | or
  | parens
  | raw
  | function
  | aggregateFunction
  | caseExpr
  | when
  | cast
  | window
  | partitionBy
  | partitionByItem
  | matched
  | selection
  | fromClause
  | join
  | onClause
  | whereClause
  | having
  | groupBy
  | groupByItem
  | orderBy
  | orderByItem
  | limit
  | offset
  | fetch
  | top
  | selectModifier
  | setOperation
  | withClause
  | commonTableExpression
  | commonTableExpressionName
  | returning
  | columnUpdate
  | onConflict
  | onDuplicateKey
  | explain
  | usingClause
  | selectQuery
  | insertQuery
  | updateQuery
  | deleteQuery
  | mergeQuery
  | createTable
  | columnDefinition
  | dataType
  | defaultValue
  | generated
  | references
  | primaryKeyConstraint
  | uniqueConstraint
  | checkConstraint
  | foreignKeyConstraint
  | dropTable
  | createIndex
  | dropIndex
  | createSchema
  | dropSchema
  | createView
  | dropView
  | alterTable
  | addColumn
  | dropColumn
  | renameColumn
  | alterColumn
  | addConstraint
  | dropConstraint
  deriving DecidableEq, Repr, Inhabited

namespace Kind

def all : List Kind := [
  .identifier, .schemableIdentifier, .table, .column, .selectAll, .reference, .aliased, .value,
  .valueList, .values, .defaultInsertValue, .operator, .binaryOperation, .unaryOperation, .and,
  .or, .parens, .raw, .function, .aggregateFunction, .caseExpr, .when, .cast, .window,
  .partitionBy, .partitionByItem, .matched, .selection, .fromClause, .join, .onClause,
  .whereClause, .having, .groupBy, .groupByItem, .orderBy, .orderByItem, .limit, .offset, .fetch,
  .top, .selectModifier, .setOperation, .withClause, .commonTableExpression,
  .commonTableExpressionName, .returning, .columnUpdate, .onConflict, .onDuplicateKey, .explain,
  .usingClause, .selectQuery, .insertQuery, .updateQuery, .deleteQuery, .mergeQuery,
  .createTable, .columnDefinition, .dataType, .defaultValue, .generated, .references,
  .primaryKeyConstraint, .uniqueConstraint, .checkConstraint, .foreignKeyConstraint, .dropTable,
  .createIndex, .dropIndex, .createSchema, .dropSchema, .createView, .dropView, .alterTable,
  .addColumn, .dropColumn, .renameColumn, .alterColumn, .addConstraint, .dropConstraint]

/-- The name a node of this kind is tagged with. -/
def name : Kind → String
  | .identifier => "Identifier"
  | .schemableIdentifier => "SchemableIdentifier"
  | .table => "Table"
  | .column => "Column"
  | .selectAll => "SelectAll"
  | .reference => "Reference"
  | .aliased => "Alias"
  | .value => "Value"
  | .valueList => "ValueList"
  | .values => "Values"
  | .defaultInsertValue => "DefaultInsertValue"
  | .operator => "Operator"
  | .binaryOperation => "BinaryOperation"
  | .unaryOperation => "UnaryOperation"
  | .and => "And"
  | .or => "Or"
  | .parens => "Parens"
  | .raw => "Raw"
  | .function => "Function"
  | .aggregateFunction => "AggregateFunction"
  | .caseExpr => "Case"
  | .when => "When"
  | .cast => "Cast"
  | .window => "Over"
  | .partitionBy => "PartitionBy"
  | .partitionByItem => "PartitionByItem"
  | .matched => "Matched"
  | .selection => "Selection"
  | .fromClause => "From"
  | .join => "Join"
  | .onClause => "On"
  | .whereClause => "Where"
  | .having => "Having"
  | .groupBy => "GroupBy"
  | .groupByItem => "GroupByItem"
  | .orderBy => "OrderBy"
  | .orderByItem => "OrderByItem"
  | .limit => "Limit"
  | .offset => "Offset"
  | .fetch => "Fetch"
  | .top => "Top"
  | .selectModifier => "SelectModifier"
  | .setOperation => "SetOperation"
  | .withClause => "With"
  | .commonTableExpression => "CommonTableExpression"
  | .commonTableExpressionName => "CommonTableExpressionName"
  | .returning => "Returning"
  | .columnUpdate => "ColumnUpdate"
  | .onConflict => "OnConflict"
  | .onDuplicateKey => "OnDuplicateKey"
  | .explain => "Explain"
  | .usingClause => "Using"
  | .selectQuery => "SelectQuery"
  | .insertQuery => "InsertQuery"
  | .updateQuery => "UpdateQuery"
  | .deleteQuery => "DeleteQuery"
  | .mergeQuery => "MergeQuery"
  | .createTable => "CreateTable"
  | .columnDefinition => "ColumnDefinition"
  | .dataType => "DataType"
  | .defaultValue => "DefaultValue"
  | .generated => "Generated"
  | .references => "References"
  | .primaryKeyConstraint => "PrimaryKeyConstraint"
  | .uniqueConstraint => "UniqueConstraint"
  | .checkConstraint => "CheckConstraint"
  | .foreignKeyConstraint => "ForeignKeyConstraint"
  | .dropTable => "DropTable"
  | .createIndex => "CreateIndex"
  | .dropIndex => "DropIndex"
  | .createSchema => "CreateSchema"
  | .dropSchema => "DropSchema"
  | .createView => "CreateView"
  | .dropView => "DropView"
  | .alterTable => "AlterTable"
  | .addColumn => "AddColumn"
  | .dropColumn => "DropColumn"
  | .renameColumn => "RenameColumn"
  | .alterColumn => "AlterColumn"
  | .addConstraint => "AddConstraint"
  | .dropConstraint => "DropConstraint"

def ofName? (s : String) : Option Kind := all.find? (·.name == s)

/-- Statements that read or change rows, which may stand inside other statements. -/
def isStatement : Kind → Bool
  | .selectQuery => true
  | .insertQuery => true
  | .updateQuery => true
  | .deleteQuery => true
  | .mergeQuery => true
  | _ => false

end Kind

end SqlTree
