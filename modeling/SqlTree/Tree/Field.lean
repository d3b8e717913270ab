import SqlTree.Tree.Node

/-!
# Fields

The fields of a node under the names they are stored with, children in the order in which they are
written.  Whatever looks at all fields alike, such as equality, is defined on them.
-/

namespace SqlTree

/-- The content of a field, with children given as `α`. -/
inductive Field (α : Type) where
  | child (slot : Slot) (a : α)
  | optional (slot : Slot) (a : Option α)
  | children (slot : Slot) (as : List α)
  | items (i : ListItems α)
  | value (v : Value)
  | plain (j : Json)

namespace Field

variable {α : Type}

def word {e : Type} [Named e] (x : e) : Field α := .plain (.string (Named.name x))

def optionalWord {e : Type} [Named e] : Option e → Field α
  | some x => .word x
  | none => .plain .null

def flag (b : Bool) : Field α := .plain (.bool b)

def optionalFlag : Option Bool → Field α
  | some b => .flag b
  | none => .plain .null

def text (s : String) : Field α := .plain (.string s)

def optionalText : Option String → Field α
  | some s => .text s
  | none => .plain .null

def texts (ss : List String) : Field α := .plain (.array (ss.map .string))

def map {β : Type} (f : α → β) : Field α → Field β
  | .child s a => .child s (f a)
  | .optional s a => .optional s (a.map f)
  | .children s as => .children s (as.map f)
  | .items (.primitive vs) => .items (.primitive vs)
  | .items (.expressions as) => .items (.expressions (as.map f))
  | .value v => .value v
  | .plain j => .plain j

def toList : Field α → List α
  | .child _ a => [a]
  | .optional _ a => a.toList
  | .children _ as => as
  | .items (.expressions as) => as
  | _ => []

/-- Whether a field equals another one, where the children of the first know what they equal. -/
def agrees {β : Type} : Field (β → Bool) → Field β → Bool
  | .child _ p, .child _ b => p b
  | .optional _ (some p), .optional _ (some b) => p b
  | .optional _ none, .optional _ none => true
  | .children _ ps, .children _ bs => agreeAll ps bs
  | .items (.primitive vs), .items (.primitive ws) => vs == ws
  | .items (.expressions ps), .items (.expressions bs) => agreeAll ps bs
  | .value v, .value w => v == w
  | .plain j, .plain k => j == k
  | _, _ => false
where
  agreeAll : List (β → Bool) → List β → Bool
    | [], [] => true
    | p :: ps, b :: bs => p b && agreeAll ps bs
    | _, _ => false

end Field

def Aggregate.fields {α : Type} (p : Aggregate α) : List (String × Field α) := [
  ("func", .text p.name),
  ("aggregated", .children .any p.arguments),
  ("distinct", .flag p.distinct),
  ("order_by", .optional (.only .orderBy) p.orderBy),
  ("filter", .optional (.only .whereClause) p.filter),
  ("over", .optional (.only .window) p.window)]

def OnConflict.fields {α : Type} (p : OnConflict α) : List (String × Field α) := [
  ("columns", .children (.only .column) p.columns),
  ("constraint", .optional (.only .identifier) p.constraint),
  ("index_expression", .optional .any p.indexExpression),
  ("index_where", .optional (.only .whereClause) p.indexWhere),
  ("updates", .children (.only .columnUpdate) p.updates),
  ("update_where", .optional (.only .whereClause) p.updateWhere),
  ("do_nothing", .flag p.doNothing)]

def Select.fields {α : Type} (p : Select α) : List (String × Field α) := [
  ("explain", .optional (.only .explain) p.explain),
  ("with", .optional (.only .withClause) p.withClause),
  ("front_modifiers", .children (.only .selectModifier) p.frontModifiers),
  ("distinct_on", .children .any p.distinctOn),
  ("top", .optional (.only .top) p.top),
  ("selections", .children (.only .selection) p.selections),
  ("from", .optional (.only .fromClause) p.fromClause),
  ("joins", .children (.only .join) p.joins),
  ("where", .optional (.only .whereClause) p.whereClause),
  ("group_by", .optional (.only .groupBy) p.groupBy),
  ("having", .optional (.only .having) p.having),
  ("set_operations", .children (.only .setOperation) p.setOperations),
  ("order_by", .optional (.only .orderBy) p.orderBy),
  ("limit", .optional (.only .limit) p.limit),
  ("offset", .optional (.only .offset) p.offset),
  ("fetch", .optional (.only .fetch) p.fetch),
  ("end_modifiers", .children (.only .selectModifier) p.endModifiers)]

def Insert.fields {α : Type} (p : Insert α) : List (String × Field α) := [
  ("explain", .optional (.only .explain) p.explain),
  ("with", .optional (.only .withClause) p.withClause),
  ("into", .optional (.only .table) p.into),
  ("columns", .children (.only .column) p.columns),
  ("values", .optional .any p.values),
  ("on_conflict", .optional (.only .onConflict) p.onConflict),
  ("on_duplicate_key", .optional (.only .onDuplicateKey) p.onDuplicateKey),
  ("returning", .optional (.only .returning) p.returning),
  ("ignore", .flag p.ignore),
  ("replace", .flag p.replace),
  ("default_values", .flag p.defaultValues)]

def Update.fields {α : Type} (p : Update α) : List (String × Field α) := [
  ("explain", .optional (.only .explain) p.explain),
  ("with", .optional (.only .withClause) p.withClause),
  ("table", .optional .any p.table),
  ("joins", .children (.only .join) p.joins),
  ("updates", .children (.only .columnUpdate) p.updates),
  ("from", .optional (.only .fromClause) p.fromClause),
  ("where", .optional (.only .whereClause) p.whereClause),
  ("limit", .optional (.only .limit) p.limit),
  ("returning", .optional (.only .returning) p.returning)]

def Delete.fields {α : Type} (p : Delete α) : List (String × Field α) := [
  ("explain", .optional (.only .explain) p.explain),
  ("with", .optional (.only .withClause) p.withClause),
  ("from", .child (.only .fromClause) p.fromClause),
  ("using", .optional (.only .usingClause) p.usingClause),
  ("joins", .children (.only .join) p.joins),
  ("where", .optional (.only .whereClause) p.whereClause),
  ("order_by", .optional (.only .orderBy) p.orderBy),
  ("limit", .optional (.only .limit) p.limit),
  ("returning", .optional (.only .returning) p.returning)]

def Merge.fields {α : Type} (p : Merge α) : List (String × Field α) := [
  ("with", .optional (.only .withClause) p.withClause),
  ("into", .child .any p.into),
  ("using", .optional (.only .join) p.usingJoin),
  ("whens", .children (.only .when) p.branches)]

def CreateTable.fields {α : Type} (p : CreateTable α) : List (String × Field α) := [
  ("table", .child (.only .table) p.table),
  ("columns", .children (.only .columnDefinition) p.columns),
  ("constraints", .children .any p.constraints),
  ("temporary", .flag p.temporary),
  ("if_not_exists", .flag p.ifNotExists),
  ("on_commit", .optionalWord p.onCommit)]

def ColumnDefinition.fields {α : Type} (p : ColumnDefinition α) : List (String × Field α) := [
  ("column", .child (.only .column) p.column),
  ("data_type", .child .any p.dataType),
  ("references", .optional (.only .references) p.references),
  ("primary_key", .flag p.primaryKey),
  ("auto_increment", .flag p.autoIncrement),
  ("unique", .flag p.unique),
  ("not_null", .flag p.notNull),
  ("unsigned", .flag p.unsigned),
  ("nulls_not_distinct", .flag p.nullsNotDistinct),
  ("default_to", .optional (.only .defaultValue) p.defaultTo),
  ("check", .optional (.only .checkConstraint) p.check),
  ("generated", .optional (.only .generated) p.generated)]

def Generated.fields {α : Type} (p : Generated α) : List (String × Field α) := [
  ("by_default", .flag p.byDefault),
  ("always", .flag p.always),
  ("identity", .flag p.identity),
  ("stored", .flag p.stored),
  ("expression", .optional .any p.expression)]

def References.fields {α : Type} (p : References α) : List (String × Field α) := [
  ("table", .child (.only .table) p.table),
  ("columns", .children (.only .column) p.columns),
  ("on_delete", .optionalWord p.onDelete),
  ("on_update", .optionalWord p.onUpdate)]

def CreateIndex.fields {α : Type} (p : CreateIndex α) : List (String × Field α) := [
  ("name", .child (.only .identifier) p.name),
  ("table", .optional (.only .table) p.table),
  ("columns", .children .any p.columns),
  ("unique", .flag p.unique),
  ("if_not_exists", .flag p.ifNotExists),
  ("using", .optionalText p.method),
  ("where", .optional (.only .whereClause) p.whereClause),
  ("nulls_not_distinct", .flag p.nullsNotDistinct)]

def CreateView.fields {α : Type} (p : CreateView α) : List (String × Field α) := [
  ("name", .child (.only .schemableIdentifier) p.name),
  ("columns", .children (.only .column) p.columns),
  ("as", .optional .any p.query),
  ("or_replace", .flag p.orReplace),
  ("temporary", .flag p.temporary),
  ("materialized", .flag p.materialized),
  ("if_not_exists", .flag p.ifNotExists)]

def AlterTable.fields {α : Type} (p : AlterTable α) : List (String × Field α) := [
  ("table", .child (.only .table) p.table),
  ("rename_to", .optional (.only .table) p.renameTo),
  ("set_schema", .optional (.only .identifier) p.setSchema),
  ("column_alterations", .children .any p.columnAlterations),
  ("add_constraint", .optional (.only .addConstraint) p.addConstraint),
  ("drop_constraint", .optional (.only .dropConstraint) p.dropConstraint)]

def AlterColumn.fields {α : Type} (p : AlterColumn α) : List (String × Field α) := [
  ("column", .child (.only .column) p.column),
  ("data_type", .optional .any p.dataType),
  ("set_default", .optional .any p.setDefault),
  ("drop_default", .flag p.dropDefault),
  ("set_not_null", .flag p.setNotNull),
  ("drop_not_null", .flag p.dropNotNull)]

/-- The fields of a node. -/
def Shape.fields {α : Type} : Shape α → List (String × Field α)
  | .identifier a => [("name", .text a)]
  | .schemableIdentifier a b => [
    ("schema", .optional (.only .identifier) a), ("identifier", .child (.only .identifier) b)]
  | .table a => [("table", .child (.only .schemableIdentifier) a)]
  | .column a => [("column", .child (.only .identifier) a)]
  | .selectAll => []
  | .reference a b => [("table", .optional (.only .table) a), ("column", .child .any b)]
  | .aliased a b => [("node", .child .any a), ("alias", .child .any b)]
  | .value a b => [("value", .value a), ("immediate", .flag b)]
  | .valueList a => [("values", .items a)]
  | .values a => [("values", .children (.only .valueList) a)]
  | .defaultInsertValue => []
  | .operator a => [("operator", .word a)]
  | .binaryOperation a b c => [
    ("left", .child .any a), ("operator", .child (.only .operator) b), ("right", .child .any c)]
  | .unaryOperation a b => [("operator", .child (.only .operator) a), ("operand", .child .any b)]
  | .and a b => [("left", .child .any a), ("right", .child .any b)]
  | .or a b => [("left", .child .any a), ("right", .child .any b)]
  | .parens a => [("node", .child .any a)]
  | .raw a b => [("sql_fragments", .texts a), ("parameters", .children .any b)]
  | .function a b => [("name", .text a), ("arguments", .children .any b)]
  | .aggregateFunction p => p.fields
  | .caseExpr a b c d => [
    ("value", .optional .any a), ("when", .children (.only .when) b), ("else", .optional .any c),
    ("is_statement", .flag d)]
  | .when a b => [("condition", .child .any a), ("result", .optional .any b)]
  | .cast a b => [("expression", .child .any a), ("data_type", .child .any b)]
  | .window a b => [
    ("partition_by", .optional (.only .partitionBy) a),
    ("order_by", .optional (.only .orderBy) b)]
  | .partitionBy a => [("items", .children (.only .partitionByItem) a)]
  | .partitionByItem a => [("partition_by", .child .any a)]
  | .matched a b => [("not", .flag a), ("by_source", .flag b)]
  | .selection a => [("selection", .child .any a)]
  | .fromClause a => [("froms", .children .any a)]
  | .join a b c => [
    ("join_type", .word a), ("table", .child .any b), ("on", .optional (.only .onClause) c)]
  | .onClause a => [("on", .child .any a)]
  | .whereClause a => [("where", .child .any a)]
  | .having a => [("having", .child .any a)]
  | .groupBy a => [("items", .children (.only .groupByItem) a)]
  | .groupByItem a => [("group_by", .child .any a)]
  | .orderBy a => [("items", .children (.only .orderByItem) a)]
  | .orderByItem a b c => [
    ("order_by", .child .any a), ("direction", .optionalWord b), ("nulls", .optionalWord c)]
  | .limit a => [("limit", .child .any a)]
  | .offset a => [("offset", .child .any a)]
  | .fetch a b => [("row_count", .child .any a), ("modifier", .word b)]
  | .top a b => [("expression", .child .any a), ("modifier", .optionalWord b)]
  | .selectModifier a b c => [
    ("modifier", .optionalWord a), ("raw", .optional .any b), ("of", .children .any c)]
  | .setOperation a b c => [("operator", .word a), ("expression", .child .any b), ("all", .flag c)]
  | .withClause a b => [
    ("expressions", .children (.only .commonTableExpression) a), ("recursive", .flag b)]
  | .commonTableExpression a b c => [
    ("name", .child (.only .commonTableExpressionName) a), ("materialized", .optionalFlag b),
    ("expression", .child .any c)]
  | .commonTableExpressionName a b => [
    ("table", .child (.only .table) a), ("columns", .children (.only .column) b)]
  | .returning a => [("selections", .children (.only .selection) a)]
  | .columnUpdate a b => [("column", .child .any a), ("value", .child .any b)]
  | .onConflict p => p.fields
  | .onDuplicateKey a => [("updates", .children (.only .columnUpdate) a)]
  | .explain a => [("options", .optional .any a)]
  | .usingClause a => [("tables", .children .any a)]
  | .selectQuery p => p.fields
  | .insertQuery p => p.fields
  | .updateQuery p => p.fields
  | .deleteQuery p => p.fields
  | .mergeQuery p => p.fields
  | .createTable p => p.fields
  | .columnDefinition p => p.fields
  | .dataType a => [("data_type", .text a)]
  | .defaultValue a => [("default_value", .child .any a)]
  | .generated p => p.fields
  | .references p => p.fields
  | .primaryKeyConstraint a b => [
    ("columns", .children (.only .column) a), ("name", .optional (.only .identifier) b)]
  | .uniqueConstraint a b c => [
    ("columns", .children (.only .column) a), ("name", .optional (.only .identifier) b),
    ("nulls_not_distinct", .flag c)]
  | .checkConstraint a b => [
    ("expression", .child .any a), ("name", .optional (.only .identifier) b)]
  | .foreignKeyConstraint a b c => [
    ("columns", .children (.only .column) a), ("references", .child (.only .references) b),
    ("name", .optional (.only .identifier) c)]
  | .dropTable a b c => [
    ("table", .child (.only .table) a), ("if_exists", .flag b), ("cascade", .flag c)]
  | .createIndex p => p.fields
  | .dropIndex a b c d => [
    ("name", .child (.only .schemableIdentifier) a), ("table", .optional (.only .table) b),
    ("if_exists", .flag c), ("cascade", .flag d)]
  | .createSchema a b => [("schema", .child (.only .identifier) a), ("if_not_exists", .flag b)]
  | .dropSchema a b c => [
    ("schema", .child (.only .identifier) a), ("if_exists", .flag b), ("cascade", .flag c)]
  | .createView p => p.fields
  | .dropView a b c d => [
    ("name", .child (.only .schemableIdentifier) a), ("if_exists", .flag b),
    ("cascade", .flag c), ("materialized", .flag d)]
  | .alterTable p => p.fields
  | .addColumn a => [("column", .child (.only .columnDefinition) a)]
  | .dropColumn a => [("column", .child (.only .column) a)]
  | .renameColumn a b => [
    ("column", .child (.only .column) a), ("rename_to", .child (.only .column) b)]
  | .alterColumn p => p.fields
  | .addConstraint a => [("constraint", .child .any a)]
  | .dropConstraint a b c => [
    ("constraint_name", .child (.only .identifier) a), ("if_exists", .flag b),
    ("cascade", .flag c)]

/-- The order in which the fields of a statement on rows are stored; other nodes store theirs in the
order in which they are written. -/
def Kind.storedOrder? : Kind → Option (List String)
  | .selectQuery => some ["from", "selections", "distinct_on", "joins", "group_by", "order_by",
      "where", "front_modifiers", "end_modifiers", "limit", "offset", "fetch", "top", "with",
      "having", "set_operations", "explain"]
  | .insertQuery => some ["into", "columns", "values", "returning", "on_conflict",
      "on_duplicate_key", "with", "ignore", "replace", "default_values", "explain"]
  | .updateQuery => some ["table", "from", "joins", "where", "updates", "returning", "with",
      "limit", "explain"]
  | .deleteQuery => some ["from", "using", "joins", "where", "returning", "with", "order_by",
      "limit", "explain"]
  | .mergeQuery => some ["into", "using", "whens", "with"]
  | _ => none

/-- The fields in the order in which they are stored. -/
def Shape.stored {α : Type} (s : Shape α) : List (String × Field α) :=
  match s.kind.storedOrder? with
  | some names => names.filterMap fun name => (s.fields.lookup name).map (name, ·)
  | none => s.fields

/-- The children in the order in which they are written. -/
def Shape.children {α : Type} (s : Shape α) : List α := s.fields.flatMap (·.2.toList)

namespace Node

def children (n : Node) : List Node := n.shape.children

/-- Structural equality, with floating-point numbers compared as numbers. -/
def beq : Node → Node → Bool :=
  para fun n s other => n.kind == other.kind && agree s.fields other.shape.fields
where
  agree : List (String × Field (Node × (Node → Bool))) → List (String × Field Node) → Bool
    | [], [] => true
    | (_, f) :: fs, (_, g) :: gs => (f.map Prod.snd).agrees g && agree fs gs
    | _, _ => false

instance : BEq Node := ⟨beq⟩

end Node

end SqlTree
