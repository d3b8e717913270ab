import SqlTree.Tree.Field
import SqlTree.Value.Codec

/-!
# Stored trees

Trees as JSON.  Where every kind of node may stand a node is stored as `kind` and `node`, where one
kind is required as its record alone.  A record is an object of its fields or an array of them in
order; a field that may be absent may be missing in an object, and the four statements on rows have
a default for every field.  Members that are no fields are passed over, whatever they hold.
-/

namespace SqlTree

/-! ## Writing -/

namespace Field

/-- The JSON of a field, where a child knows its JSON in every slot. -/
def toJson : Field (Slot → Json) → Json
  | .child slot f => f slot
  | .optional slot (some f) => f slot
  | .optional _ none => .null
  | .children slot fs => .array (fs.map (· slot))
  | .items (.primitive vs) => .object [("Primitive", .array (vs.map Value.toTagged))]
  | .items (.expressions fs) => .object [("Expressions", .array (fs.map (· .any)))]
  | .value v => v.toTagged
  | .plain j => j

end Field

namespace Node

/-- The record of a node from its fields; a node without fields has `null`. -/
def recordJson (fields : List (String × Field (Slot → Json))) : Json :=
  if fields.isEmpty then .null else .object (fields.map fun f => (f.1, f.2.toJson))

def jsonIn : Node → Slot → Json :=
  para fun n s slot =>
    let content := recordJson (s.stored.map fun f => (f.1, f.2.map Prod.snd))
    match slot with
    | .any => .object [("kind", .string n.kind.name), ("node", content)]
    | .only _ => content

/-- The stored form of a tree. -/
def toJson (n : Node) : Json := n.jsonIn .any

end Node

/-! ## Reading -/

/-- A document, and the nodes it stands for in each slot. -/
structure Reading where
  mode : Json.Mode
  /-- The document, if nothing in it was passed over. -/
  json : Option Json
  node : Slot → Option Node
  nodes : Slot → Option (List Node)
  items : Option (ListItems Node)

namespace Reading

def word? (r : Reading) : Option String := do (← r.json).word? r.mode

def value? (r : Reading) : Option Value := do Value.ofTagged? (← r.json) r.mode

def values? (r : Reading) : Option (List Value) := do
  (← (← r.json).array?).mapM (Value.ofTagged? · r.mode)

def texts? (r : Reading) : Option (List String) := do
  (← (← r.json).array?).mapM Json.string?

end Reading

/-- A record whose fields are being read. -/
inductive Record where
  | named (members : List (String × Reading))
  | listed (items : List Reading)

/-- Readers of records; `none` refuses the record. -/
abbrev RecordReader := StateT Record Option

namespace RecordReader

variable {α : Type}

/-- The next field, none if it is missing.  A field given twice is refused. -/
def next? (name : String) : RecordReader (Option Reading) := fun r =>
  match r with
  | .named members =>
    match members.filter (·.1 == name) with
    | [] => some (none, r)
    | [m] => some (some m.2, r)
    | _ => none
  | .listed [] => some (none, r)
  | .listed (i :: is) => some (some i, .listed is)

def required (name : String) (read : Reading → Option α) : RecordReader α := do
  match ← next? name with
  | some r => read r
  | none => failure

/-- A field that is required, or has a default if the record has defaults. -/
def defaulting (dflt : Option α) (name : String) (read : Reading → Option α) : RecordReader α := do
  match ← next? name with
  | some r => read r
  | none => dflt

/-- A field that may be `null`, and missing in an object. -/
def optionally (defaults : Bool) (name : String) (read : Reading → Option α) :
    RecordReader (Option α) := do
  match ← next? name with
  | some r => if r.json matches some .null then return none else (read r).map some
  | none =>
    match ← get with
    | .named _ => return none
    | .listed _ => if defaults then return none else failure

def child (slot : Slot) (name : String) : RecordReader Node := required name (·.node slot)

def optional (slot : Slot) (name : String) (defaults : Bool := false) :
    RecordReader (Option Node) := optionally defaults name (·.node slot)

def children (slot : Slot) (name : String) (defaults : Bool := false) :
    RecordReader (List Node) := defaulting (if defaults then some [] else none) name (·.nodes slot)

def flag (name : String) (defaults : Bool := false) : RecordReader Bool :=
  defaulting (if defaults then some false else none) name (·.json.bind Json.bool?)

def optionalFlag (name : String) : RecordReader (Option Bool) :=
  optionally false name (·.json.bind Json.bool?)

def text (name : String) : RecordReader String := required name (·.json.bind Json.string?)

def optionalText (name : String) : RecordReader (Option String) :=
  optionally false name (·.json.bind Json.string?)

def texts (name : String) : RecordReader (List String) := required name Reading.texts?

def word [Named α] (name : String) : RecordReader α :=
  required name fun r => do Named.ofName? (← r.word?)

def optionalWord [Named α] (name : String) : RecordReader (Option α) :=
  optionally false name fun r => do Named.ofName? (← r.word?)

def value (name : String) : RecordReader Value := required name Reading.value?

def items (name : String) : RecordReader (ListItems Node) := required name (·.items)

def aggregateFunction : RecordReader (Aggregate Node) :=
  Aggregate.mk
    <$> text "func"
    <*> children .any "aggregated"
    <*> flag "distinct"
    <*> optional (.only .orderBy) "order_by"
    <*> optional (.only .whereClause) "filter"
    <*> optional (.only .window) "over"

def onConflict : RecordReader (OnConflict Node) :=
  OnConflict.mk
    <$> children (.only .column) "columns"
    <*> optional (.only .identifier) "constraint"
    <*> optional .any "index_expression"
    <*> optional (.only .whereClause) "index_where"
    <*> children (.only .columnUpdate) "updates"
    <*> optional (.only .whereClause) "update_where"
    <*> flag "do_nothing"

def selectQuery : RecordReader (Select Node) :=
  Select.mk
    <$> optional (.only .fromClause) "from" true
    <*> children (.only .selection) "selections" true
    <*> children .any "distinct_on" true
    <*> children (.only .join) "joins" true
    <*> optional (.only .groupBy) "group_by" true
    <*> optional (.only .orderBy) "order_by" true
    <*> optional (.only .whereClause) "where" true
    <*> children (.only .selectModifier) "front_modifiers" true
    <*> children (.only .selectModifier) "end_modifiers" true
    <*> optional (.only .limit) "limit" true
    <*> optional (.only .offset) "offset" true
    <*> optional (.only .fetch) "fetch" true
    <*> optional (.only .top) "top" true
    <*> optional (.only .withClause) "with" true
    <*> optional (.only .having) "having" true
    <*> children (.only .setOperation) "set_operations" true
    <*> optional (.only .explain) "explain" true

def insertQuery : RecordReader (Insert Node) :=
  Insert.mk
    <$> optional (.only .table) "into" true
    <*> children (.only .column) "columns" true
    <*> optional .any "values" true
    <*> optional (.only .returning) "returning" true
    <*> optional (.only .onConflict) "on_conflict" true
    <*> optional (.only .onDuplicateKey) "on_duplicate_key" true
    <*> optional (.only .withClause) "with" true
    <*> flag "ignore" true
    <*> flag "replace" true
    <*> flag "default_values" true
    <*> optional (.only .explain) "explain" true

def updateQuery : RecordReader (Update Node) :=
  Update.mk
    <$> optional .any "table" true
    <*> optional (.only .fromClause) "from" true
    <*> children (.only .join) "joins" true
    <*> optional (.only .whereClause) "where" true
    <*> children (.only .columnUpdate) "updates" true
    <*> optional (.only .returning) "returning" true
    <*> optional (.only .withClause) "with" true
    <*> optional (.only .limit) "limit" true
    <*> optional (.only .explain) "explain" true

def deleteQuery : RecordReader (Delete Node) :=
  Delete.mk
    <$> defaulting (some (.mk (.fromClause []))) "from" (·.node (.only .fromClause))
    <*> optional (.only .usingClause) "using" true
    <*> children (.only .join) "joins" true
    <*> optional (.only .whereClause) "where" true
    <*> optional (.only .returning) "returning" true
    <*> optional (.only .withClause) "with" true
    <*> optional (.only .orderBy) "order_by" true
    <*> optional (.only .limit) "limit" true
    <*> optional (.only .explain) "explain" true

def mergeQuery : RecordReader (Merge Node) :=
  Merge.mk
    <$> child .any "into"
    <*> optional (.only .join) "using"
    <*> children (.only .when) "whens"
    <*> optional (.only .withClause) "with"

def createTable : RecordReader (CreateTable Node) :=
  CreateTable.mk
    <$> child (.only .table) "table"
    <*> children (.only .columnDefinition) "columns"
    <*> children .any "constraints"
    <*> flag "temporary"
    <*> flag "if_not_exists"
    <*> optionalWord "on_commit"

def columnDefinition : RecordReader (ColumnDefinition Node) :=
  ColumnDefinition.mk
    <$> child (.only .column) "column"
    <*> child .any "data_type"
    <*> optional (.only .references) "references"
    <*> flag "primary_key"
    <*> flag "auto_increment"
    <*> flag "unique"
    <*> flag "not_null"
    <*> flag "unsigned"
    <*> flag "nulls_not_distinct"
    <*> optional (.only .defaultValue) "default_to"
    <*> optional (.only .checkConstraint) "check"
    <*> optional (.only .generated) "generated"

def generated : RecordReader (Generated Node) :=
  Generated.mk
    <$> flag "by_default"
    <*> flag "always"
    <*> flag "identity"
    <*> flag "stored"
    <*> optional .any "expression"

def references : RecordReader (References Node) :=
  References.mk
    <$> child (.only .table) "table"
    <*> children (.only .column) "columns"
    <*> optionalWord "on_delete"
    <*> optionalWord "on_update"

def createIndex : RecordReader (CreateIndex Node) :=
  CreateIndex.mk
    <$> child (.only .identifier) "name"
    <*> optional (.only .table) "table"
    <*> children .any "columns"
    <*> flag "unique"
    <*> flag "if_not_exists"
    <*> optionalText "using"
    <*> optional (.only .whereClause) "where"
    <*> flag "nulls_not_distinct"

def createView : RecordReader (CreateView Node) :=
  CreateView.mk
    <$> child (.only .schemableIdentifier) "name"
    <*> children (.only .column) "columns"
    <*> optional .any "as"
    <*> flag "or_replace"
    <*> flag "temporary"
    <*> flag "materialized"
    <*> flag "if_not_exists"

def alterTable : RecordReader (AlterTable Node) :=
  AlterTable.mk
    <$> child (.only .table) "table"
    <*> optional (.only .table) "rename_to"
    <*> optional (.only .identifier) "set_schema"
    <*> children .any "column_alterations"
    <*> optional (.only .addConstraint) "add_constraint"
    <*> optional (.only .dropConstraint) "drop_constraint"

def alterColumn : RecordReader (AlterColumn Node) :=
  AlterColumn.mk
    <$> child (.only .column) "column"
    <*> optional .any "data_type"
    <*> optional .any "set_default"
    <*> flag "drop_default"
    <*> flag "set_not_null"
    <*> flag "drop_not_null"

/-- The fields of a node of a given kind, in the order of the record. -/
def shape : Kind → RecordReader (Shape Node)
  | .identifier => .identifier <$> text "name"
  | .schemableIdentifier => .schemableIdentifier <$> optional (.only .identifier) "schema" <*>
    child (.only .identifier) "identifier"
  | .table => .table <$> child (.only .schemableIdentifier) "table"
  | .column => .column <$> child (.only .identifier) "column"
  | .selectAll => failure
  | .reference => .reference <$> optional (.only .table) "table" <*> child .any "column"
  | .aliased => .aliased <$> child .any "node" <*> child .any "alias"
  | .value => .value <$> value "value" <*> flag "immediate"
  | .valueList => .valueList <$> items "values"
  | .values => .values <$> children (.only .valueList) "values"
  | .defaultInsertValue => failure
  | .operator => .operator <$> word "operator"
  | .binaryOperation => .binaryOperation <$> child .any "left" <*>
    child (.only .operator) "operator" <*> child .any "right"
  | .unaryOperation => .unaryOperation <$> child (.only .operator) "operator" <*>
    child .any "operand"
  | .and => .and <$> child .any "left" <*> child .any "right"
  | .or => .or <$> child .any "left" <*> child .any "right"
  | .parens => .parens <$> child .any "node"
  | .raw => .raw <$> texts "sql_fragments" <*> children .any "parameters"
  | .function => .function <$> text "name" <*> children .any "arguments"
  | .aggregateFunction => .aggregateFunction <$> aggregateFunction
  | .caseExpr => .caseExpr <$> optional .any "value" <*> children (.only .when) "when" <*>
    optional .any "else" <*> flag "is_statement"
  | .when => .when <$> child .any "condition" <*> optional .any "result"
  | .cast => .cast <$> child .any "expression" <*> child .any "data_type"
  | .window => .window <$> optional (.only .partitionBy) "partition_by" <*>
    optional (.only .orderBy) "order_by"
  | .partitionBy => .partitionBy <$> children (.only .partitionByItem) "items"
  | .partitionByItem => .partitionByItem <$> child .any "partition_by"
  | .matched => .matched <$> flag "not" <*> flag "by_source"
  | .selection => .selection <$> child .any "selection"
  | .fromClause => .fromClause <$> children .any "froms"
  | .join => .join <$> word "join_type" <*> child .any "table" <*>
    optional (.only .onClause) "on"
  | .onClause => .onClause <$> child .any "on"
  | .whereClause => .whereClause <$> child .any "where"
  | .having => .having <$> child .any "having"
  | .groupBy => .groupBy <$> children (.only .groupByItem) "items"
  | .groupByItem => .groupByItem <$> child .any "group_by"
  | .orderBy => .orderBy <$> children (.only .orderByItem) "items"
  | .orderByItem => .orderByItem <$> child .any "order_by" <*> optionalWord "direction" <*>
    optionalWord "nulls"
  | .limit => .limit <$> child .any "limit"
  | .offset => .offset <$> child .any "offset"
  | .fetch => .fetch <$> child .any "row_count" <*> word "modifier"
  | .top => .top <$> child .any "expression" <*> optionalWord "modifier"
  | .selectModifier => .selectModifier <$> optionalWord "modifier" <*> optional .any "raw" <*>
    children .any "of"
  | .setOperation => .setOperation <$> word "operator" <*> child .any "expression" <*> flag "all"
  | .withClause => .withClause <$> children (.only .commonTableExpression) "expressions" <*>
    flag "recursive"
  | .commonTableExpression => .commonTableExpression <$>
    child (.only .commonTableExpressionName) "name" <*> optionalFlag "materialized" <*>
    child .any "expression"
  | .commonTableExpressionName => .commonTableExpressionName <$> child (.only .table) "table" <*>
    children (.only .column) "columns"
  | .returning => .returning <$> children (.only .selection) "selections"
  | .columnUpdate => .columnUpdate <$> child .any "column" <*> child .any "value"
  | .onConflict => .onConflict <$> onConflict
  | .onDuplicateKey => .onDuplicateKey <$> children (.only .columnUpdate) "updates"
  | .explain => .explain <$> optional .any "options"
  | .usingClause => .usingClause <$> children .any "tables"
  | .selectQuery => .selectQuery <$> selectQuery
  | .insertQuery => .insertQuery <$> insertQuery
  | .updateQuery => .updateQuery <$> updateQuery
  | .deleteQuery => .deleteQuery <$> deleteQuery
  | .mergeQuery => .mergeQuery <$> mergeQuery
  | .createTable => .createTable <$> createTable
  | .columnDefinition => .columnDefinition <$> columnDefinition
  | .dataType => .dataType <$> text "data_type"
  | .defaultValue => .defaultValue <$> child .any "default_value"
  | .generated => .generated <$> generated
  | .references => .references <$> references
  | .primaryKeyConstraint => .primaryKeyConstraint <$> children (.only .column) "columns" <*>
    optional (.only .identifier) "name"
  | .uniqueConstraint => .uniqueConstraint <$> children (.only .column) "columns" <*>
    optional (.only .identifier) "name" <*> flag "nulls_not_distinct"
  | .checkConstraint => .checkConstraint <$> child .any "expression" <*>
    optional (.only .identifier) "name"
  | .foreignKeyConstraint => .foreignKeyConstraint <$> children (.only .column) "columns" <*>
    child (.only .references) "references" <*> optional (.only .identifier) "name"
  | .dropTable => .dropTable <$> child (.only .table) "table" <*> flag "if_exists" <*>
    flag "cascade"
  | .createIndex => .createIndex <$> createIndex
  | .dropIndex => .dropIndex <$> child (.only .schemableIdentifier) "name" <*>
    optional (.only .table) "table" <*> flag "if_exists" <*> flag "cascade"
  | .createSchema => .createSchema <$> child (.only .identifier) "schema" <*>
    flag "if_not_exists"
  | .dropSchema => .dropSchema <$> child (.only .identifier) "schema" <*> flag "if_exists" <*>
    flag "cascade"
  | .createView => .createView <$> createView
  | .dropView => .dropView <$> child (.only .schemableIdentifier) "name" <*> flag "if_exists" <*>
    flag "cascade" <*> flag "materialized"
  | .alterTable => .alterTable <$> alterTable
  | .addColumn => .addColumn <$> child (.only .columnDefinition) "column"
  | .dropColumn => .dropColumn <$> child (.only .column) "column"
  | .renameColumn => .renameColumn <$> child (.only .column) "column" <*>
    child (.only .column) "rename_to"
  | .alterColumn => .alterColumn <$> alterColumn
  | .addConstraint => .addConstraint <$> child .any "constraint"
  | .dropConstraint => .dropConstraint <$> child (.only .identifier) "constraint_name" <*>
    flag "if_exists" <*> flag "cascade"

end RecordReader

/-- The node of a record; an array holds no more than the fields. -/
def Record.node? (k : Kind) (r : Record) : Option Node :=
  match RecordReader.shape k r with
  | some (s, .listed []) => some (.mk s)
  | some (_, .listed _) => none
  | some (s, .named _) => some (.mk s)
  | none => none

namespace Reading

/-- The node of a kind without fields. -/
def fieldless? : Kind → Option Node
  | .selectAll => some (.mk .selectAll)
  | .defaultInsertValue => some (.mk .defaultInsertValue)
  | _ => none

/-- Text that was passed over stands for nothing. -/
def skipped (mode : Json.Mode) : Reading where
  mode
  json := none
  node _ := none
  nodes _ := none
  items := none

/-- A document that is neither an array nor an object: `null` stands for a node without fields. -/
def leaf (mode : Json.Mode) (j : Json) : Reading where
  mode
  json := some j
  node
    | .only k => if j matches .null then fieldless? k else none
    | .any => none
  nodes _ := none
  items := none

/-- The node of a record; in what was kept, one without parts is also a node without fields. -/
def ofRecord? (mode : Json.Mode) (parts : Nat) (r : Record) (k : Kind) : Option Node :=
  match fieldless? k with
  | some n => if mode = .kept ∧ parts = 0 then some n else none
  | none => Record.node? k r

/-- A node with its kind. -/
def tagged (tag content : Reading) : Option Node := do
  content.node (.only (← Kind.ofName? (← tag.word?)))

def array (mode : Json.Mode) (rs : List Reading) : Reading where
  mode
  json := (rs.mapM Reading.json).map .array
  node
    | .only k => ofRecord? mode rs.length (.listed rs) k
    | .any => match rs with
      | [tag, content] => tagged tag content
      | _ => none
  nodes slot := rs.mapM (·.node slot)
  items := none

/-- An object, where `keep` reads content that stands before its kind. -/
def object (mode : Json.Mode) (keep : Reading → Option Reading) (rs : List (String × Reading)) :
    Reading where
  mode
  json := (rs.mapM fun (m : String × Reading) => m.2.json.map (m.1, ·)).map .object
  node
    | .only k => ofRecord? mode rs.length (.named rs) k
    | .any => match rs.filter fun m => m.1 == "kind" || m.1 == "node" with
      | [("kind", tag), ("node", content)] => tagged tag content
      | [("node", content), ("kind", tag)] => do tagged tag (← keep content)
      | _ => none
  nodes _ := none
  items := match rs with
    | [("Primitive", r)] => .primitive <$> r.values?
    | [("Expressions", r)] => .expressions <$> r.nodes .any
    | _ => none

def algebra (mode : Json.Mode) (keep : Reading → Option Reading) : Json.Algebra Reading where
  leaf := leaf mode
  array := array mode
  object := object mode keep
  skipped := skipped mode

/-- Documents that are kept. -/
def kept : Json.Algebra Reading := algebra .kept some

/-- Documents that are read as they come.  Content that stands before its kind is kept, and nothing
in it may have been passed over. -/
def direct : Json.Algebra Reading := algebra .direct fun r => r.json.map (·.fold kept)

end Reading

/-- What a document stands for. -/
def Json.reading (j : Json) : Reading := j.fold Reading.direct

/-- The tree of a stored form. -/
def Node.ofJson? (j : Json) : Option Node := j.reading.node .any

/-- The node of a stored record. -/
def Node.ofRecord? (k : Kind) (j : Json) : Option Node := j.reading.node (.only k)

end SqlTree
