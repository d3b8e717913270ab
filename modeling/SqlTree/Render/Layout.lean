import SqlTree.Render.Piece
import SqlTree.Tree.Field

/-!
# Layout of statements

The pieces of every kind of node, given the pieces of its children.  Nothing is written but what the
node holds, and a statement inside another one is parenthesized by the kinds of the two.
-/

namespace SqlTree

namespace Layout

/-- A child with its pieces. -/
abbrev Part := Node × List Piece

def sql (s : String) : List Piece := [.text s]

def sqlIf (b : Bool) (s : String) : List Piece := if b then [.text s] else []

/-- Parts with a separator between them. -/
def separated (separator : String) : List Part → List Piece
  | [] => []
  | [p] => p.2
  | p :: ps => p.2 ++ .text separator :: separated separator ps

def commas (ps : List Part) : List Piece := separated ", " ps

def listed (ps : List Part) : List Piece := sql "(" ++ commas ps ++ sql ")"

/-- A part after words that are written only with it. -/
def after (words : String) : Option Part → List Piece
  | some p => .text words :: p.2
  | none => []

/-- A clause after a blank. -/
def clause (p : Option Part) : List Piece := after " " p

/-- Clauses, each after a blank. -/
def clauses (ps : List Part) : List Piece := ps.flatMap fun p => .text " " :: p.2

/-- A part before the blank that is written only with it. -/
def leading : Option Part → List Piece
  | some p => p.2 ++ sql " "
  | none => []

/-- Parameters of a list of plain values. -/
def parameters : List Value → List Piece
  | [] => []
  | [v] => [.parameter v]
  | v :: vs => .parameter v :: .text ", " :: parameters vs

/-- Fragments of text, each before its part; parts without a fragment are left out. -/
def fragments : List String → List Part → List Piece
  | [], _ => []
  | s :: ss, [] => .verbatim s :: fragments ss []
  | s :: ss, p :: ps => .verbatim s :: p.2 ++ fragments ss ps

/-- Whether a statement is parenthesized below a parent of that kind. -/
def parenthesized (statement : Kind) : Option Kind → Bool
  | none => false
  | some .parens => false
  | some .raw => false
  | some .when => false
  | some .insertQuery => statement != .selectQuery
  | some .createTable => statement != .selectQuery
  | some .createView => statement != .selectQuery
  | some .setOperation => statement != .selectQuery
  | some _ => true

def enclosed (statement : Kind) (parent : Option Kind) (ps : List Piece) : List Piece :=
  if parenthesized statement parent then sql "(" ++ ps ++ sql ")" else ps

/-- The place of a modifier among the others; raw ones come last. -/
def modifierPriority (n : Node) : Nat :=
  match n with
  | ⟨.selectModifier (some m) _ _⟩ => m.priority
  | _ => 3

/-- Modifiers class by class, each class in its own order. -/
def byPriority (ps : List Part) : List Part :=
  [0, 1, 2, 3].flatMap fun k => ps.filter fun p => modifierPriority p.1 == k

def modifiers (ps : List Part) : List Piece := clauses (byPriority ps)

def constraintName (name : Option Part) : List Piece :=
  match name with
  | some n => sql "constraint " ++ n.2 ++ sql " "
  | none => []

def isNegation (operator : Node) : Bool := operator matches ⟨.operator .negate⟩

def hasNoItems (fromClause : Node) : Bool := fromClause matches ⟨.fromClause []⟩

def aggregate (p : Aggregate Part) : List Piece :=
  .verbatim p.name :: sql "(" ++ sqlIf p.distinct "distinct " ++ commas p.arguments ++
    clause p.orderBy ++ sql ")" ++
    (match p.filter with
      | some f => sql " filter(" ++ f.2 ++ sql ")"
      | none => []) ++
    (match p.window with
      | some w => sql " over(" ++ w.2 ++ sql ")"
      | none => [])

def select (p : Select Part) : List Piece :=
  leading p.explain ++ leading p.withClause ++ sql "select" ++
    (if p.distinctOn.isEmpty then [] else sql " distinct on " ++ listed p.distinctOn) ++
    modifiers p.frontModifiers ++ clause p.top ++
    (if p.selections.isEmpty then [] else sql " " ++ commas p.selections) ++
    clause p.fromClause ++ clauses p.joins ++ clause p.whereClause ++ clause p.groupBy ++
    clause p.having ++ clauses p.setOperations ++ clause p.orderBy ++ clause p.limit ++
    clause p.offset ++ clause p.fetch ++ modifiers p.endModifiers

/-- The verb of an insert. -/
def insertVerb (d : Dialect) (ignore replaces : Bool) : List Piece :=
  if ignore then
    match d.insertIgnore with
    | .words s => sql s
    | .onConflictDoNothing => sql "insert"
    | .unsupported => [.refused .insertIgnore]
  else if replaces then sql "replace"
  else sql "insert"

/-- Whether conflicts are passed over by a clause at the end. -/
def ignoresAtEnd (d : Dialect) (p : Insert Part) : Bool :=
  p.ignore && d.insertIgnore == .onConflictDoNothing && p.onConflict.isNone

def insert (d : Dialect) (p : Insert Part) : List Piece :=
  leading p.explain ++ leading p.withClause ++ insertVerb d p.ignore p.replace ++
    after " into " p.into ++
    (if p.columns.isEmpty then [] else sql " " ++ listed p.columns) ++
    clause p.values ++ sqlIf p.defaultValues " default values" ++ clause p.onConflict ++
    sqlIf (ignoresAtEnd d p) " on conflict do nothing" ++ clause p.onDuplicateKey ++
    clause p.returning

/-- A bare `on conflict` names no action. -/
def onConflict (p : OnConflict Part) : List Piece :=
  sql "on conflict" ++
    (if ¬ p.columns.isEmpty then sql " " ++ listed p.columns
      else match p.constraint, p.indexExpression with
        | some c, _ => sql " on constraint " ++ c.2
        | none, some e => sql " (" ++ e.2 ++ sql ")"
        | none, none => []) ++
    clause p.indexWhere ++
    (if p.doNothing then sql " do nothing"
      else if p.updates.isEmpty then []
      else sql " do update set " ++ commas p.updates ++ clause p.updateWhere)

/-- Joins stand before the assignments unless there is a from clause. -/
def update (p : Update Part) : List Piece :=
  leading p.explain ++ leading p.withClause ++ sql "update" ++ clause p.table ++
    (if p.fromClause.isNone then clauses p.joins else []) ++ sql " set " ++ commas p.updates ++
    (if p.fromClause.isNone then [] else clause p.fromClause ++ clauses p.joins) ++
    clause p.whereClause ++ clause p.limit ++ clause p.returning

/-- Without tables it is the bare action of a merge. -/
def delete (p : Delete Part) : List Piece :=
  leading p.explain ++ leading p.withClause ++ sql "delete" ++
    (if hasNoItems p.fromClause.1 then [] else sql " " ++ p.fromClause.2) ++
    clause p.usingClause ++ clauses p.joins ++ clause p.whereClause ++ clause p.orderBy ++
    clause p.limit ++ clause p.returning

/-- The source of a merge is a join without its first piece, which says what join it is. -/
def merge (p : Merge Part) : List Piece :=
  leading p.withClause ++ sql "merge into " ++ p.into.2 ++
    (match p.usingJoin with
      | some j => sql " using " ++ j.2.tail
      | none => []) ++
    clauses p.branches

def createTable (p : CreateTable Part) : List Piece :=
  sql "create " ++ sqlIf p.temporary "temporary " ++ sql "table " ++
    sqlIf p.ifNotExists "if not exists " ++ p.table.2 ++ sql " " ++
    listed (p.columns ++ p.constraints) ++
    (match p.onCommit with
      | some a => sql (" on commit " ++ a.keyword)
      | none => [])

def columnDefinition (d : Dialect) (p : ColumnDefinition Part) : List Piece :=
  p.column.2 ++ sql " " ++ p.dataType.2 ++ sqlIf p.unsigned " unsigned" ++ clause p.generated ++
    clause p.defaultTo ++ sqlIf p.notNull " not null" ++ sqlIf p.unique " unique" ++
    sqlIf p.nullsNotDistinct " nulls not distinct" ++ sqlIf p.primaryKey " primary key" ++
    sqlIf p.autoIncrement (" " ++ d.autoIncrement) ++ clause p.references ++ clause p.check

/-- An expression counts only without `identity`. -/
def generated (p : Generated Part) : List Piece :=
  sql "generated " ++
    (if p.always then sql "always " else sqlIf p.byDefault "by default ") ++ sql "as " ++
    (match p.expression, p.identity with
      | some e, false => sql "(" ++ e.2 ++ sql ")"
      | _, _ => sql "identity") ++
    sqlIf p.stored " stored"

def references (p : References Part) : List Piece :=
  sql "references " ++ p.table.2 ++ sql " " ++ listed p.columns ++
    (match p.onDelete with
      | some a => sql (" on delete " ++ a.keyword)
      | none => []) ++
    (match p.onUpdate with
      | some a => sql (" on update " ++ a.keyword)
      | none => [])

def createIndex (p : CreateIndex Part) : List Piece :=
  sql "create " ++ sqlIf p.unique "unique " ++ sql "index " ++
    sqlIf p.ifNotExists "if not exists " ++ p.name.2 ++ after " on " p.table ++
    (match p.method with
      | some m => sql " using " ++ [.verbatim m]
      | none => []) ++
    (if p.columns.isEmpty then [] else sql " " ++ listed p.columns) ++
    sqlIf p.nullsNotDistinct " nulls not distinct" ++ clause p.whereClause

def createView (p : CreateView Part) : List Piece :=
  sql "create " ++ sqlIf p.orReplace "or replace " ++ sqlIf p.temporary "temporary " ++
    sqlIf p.materialized "materialized " ++ sql "view " ++ sqlIf p.ifNotExists "if not exists " ++
    p.name.2 ++ (if p.columns.isEmpty then [] else sql " " ++ listed p.columns) ++
    after " as " p.query

def alterTable (p : AlterTable Part) : List Piece :=
  sql "alter table " ++ p.table.2 ++ after " rename to " p.renameTo ++
    after " set schema " p.setSchema ++
    (if p.columnAlterations.isEmpty then [] else sql " " ++ commas p.columnAlterations) ++
    clause p.addConstraint ++ clause p.dropConstraint

/-- Only the first change is written. -/
def alterColumn (p : AlterColumn Part) : List Piece :=
  sql "alter column " ++ p.column.2 ++
    (match p.dataType, p.setDefault with
      | some t, _ => sql " type " ++ t.2
      | none, some v => sql " set default " ++ v.2
      | none, none =>
        if p.dropDefault then sql " drop default"
        else if p.setNotNull then sql " set not null"
        else sqlIf p.dropNotNull " drop not null")

/-- The pieces of a node below a parent of some kind. -/
def pieces (d : Dialect) (parent : Option Kind) : Shape Part → List Piece
  | .identifier s => [.name s]
  | .schemableIdentifier schema name =>
    (match schema with
      | some s => s.2 ++ sql "."
      | none => []) ++ name.2
  | .table t => t.2
  | .column c => c.2
  | .selectAll => sql "*"
  | .reference table column =>
    (match table with
      | some t => t.2 ++ sql "."
      | none => []) ++ column.2
  | .aliased n name => n.2 ++ sql " as " ++ name.2
  | .value v immediate => if immediate then [.literal v] else [.parameter v]
  | .valueList (.primitive vs) => sql "(" ++ parameters vs ++ sql ")"
  | .valueList (.expressions ps) => listed ps
  | .values rows => sql "values " ++ commas rows
  | .defaultInsertValue => sql d.defaultInsertValue
  | .operator op => sql op.symbol
  | .binaryOperation l op r => l.2 ++ sql " " ++ op.2 ++ sql " " ++ r.2
  | .unaryOperation op n => op.2 ++ sqlIf (! isNegation op.1) " " ++ n.2
  | .and l r => l.2 ++ sql " and " ++ r.2
  | .or l r => l.2 ++ sql " or " ++ r.2
  | .parens n => sql "(" ++ n.2 ++ sql ")"
  | .raw ss ps => fragments ss ps
  | .function name arguments => .verbatim name :: listed arguments
  | .aggregateFunction p => aggregate p
  | .caseExpr v branches otherwise isStatement =>
    sql "case" ++ clause v ++ clauses branches ++ after " else " otherwise ++ sql " end" ++
      sqlIf isStatement " case"
  | .when condition result => sql "when " ++ condition.2 ++ after " then " result
  | .cast e t => sql "cast(" ++ e.2 ++ sql " as " ++ t.2 ++ sql ")"
  | .window partition order =>
    match partition with
    | some p => p.2 ++ clause order
    | none => after "" order
  | .partitionBy items => sql "partition by " ++ commas items
  | .partitionByItem n => n.2
  | .matched negated bySource =>
    sqlIf negated "not " ++ sql "matched" ++ sqlIf bySource " by source"
  | .selection n => n.2
  | .fromClause items => sql "from " ++ commas items
  | .join type table condition => sql (type.keyword ++ " ") ++ table.2 ++ clause condition
  | .onClause n => sql "on " ++ n.2
  | .whereClause n => sql "where " ++ n.2
  | .having n => sql "having " ++ n.2
  | .groupBy items => sql "group by " ++ commas items
  | .groupByItem n => n.2
  | .orderBy items => sql "order by " ++ commas items
  | .orderByItem n direction nulls =>
    n.2 ++
      (match direction with
        | some x => sql (" " ++ x.keyword)
        | none => []) ++
      (match nulls with
        | some x => sql (" " ++ x.keyword)
        | none => [])
  | .limit n => sql "limit " ++ n.2
  | .offset n => sql "offset " ++ n.2 ++ sqlIf (d.pagination != .limitOffset) " rows"
  | .fetch n modifier => sql "fetch next " ++ n.2 ++ sql (" rows " ++ modifier.keyword)
  | .top n modifier =>
    sql "top(" ++ n.2 ++ sql ")" ++
      (match modifier with
        | some m => sql (" " ++ m.keyword)
        | none => [])
  | .selectModifier modifier fragment tables =>
    (match modifier, fragment with
      | some m, _ => sql m.keyword
      | none, some f => f.2
      | none, none => []) ++
      (if tables.isEmpty then [] else sql " of " ++ commas tables)
  | .setOperation op e all => sql op.keyword ++ sqlIf all " all" ++ sql " " ++ e.2
  | .withClause es recursive => sql "with " ++ sqlIf recursive "recursive " ++ commas es
  | .commonTableExpression name materialized e =>
    name.2 ++ sql " as " ++
      (match materialized with
        | some true => sql "materialized "
        | some false => sql "not materialized "
        | none => []) ++ e.2
  | .commonTableExpressionName table columns =>
    table.2 ++ (if columns.isEmpty then [] else listed columns)
  | .returning selections =>
    (if d.supportsReturning then sql "returning " else [.refused .returning]) ++ commas selections
  | .columnUpdate c v => c.2 ++ sql " = " ++ v.2
  | .onConflict p => onConflict p
  | .onDuplicateKey updates => sql "on duplicate key update " ++ commas updates
  | .explain options => sql "explain" ++ clause options
  | .usingClause tables => sql "using " ++ commas tables
  | .selectQuery p => enclosed .selectQuery parent (select p)
  | .insertQuery p => enclosed .insertQuery parent (insert d p)
  | .updateQuery p => enclosed .updateQuery parent (update p)
  | .deleteQuery p => enclosed .deleteQuery parent (delete p)
  | .mergeQuery p => enclosed .mergeQuery parent (merge p)
  | .createTable p => createTable p
  | .columnDefinition p => columnDefinition d p
  | .dataType s => [.verbatim s]
  | .defaultValue v => sql "default " ++ v.2
  | .generated p => generated p
  | .references p => references p
  | .primaryKeyConstraint columns name =>
    constraintName name ++ sql "primary key " ++ listed columns
  | .uniqueConstraint columns name nullsNotDistinct =>
    constraintName name ++ sql "unique " ++ sqlIf nullsNotDistinct "nulls not distinct " ++
      listed columns
  | .checkConstraint e name => constraintName name ++ sql "check (" ++ e.2 ++ sql ")"
  | .foreignKeyConstraint columns target name =>
    constraintName name ++ sql "foreign key " ++ listed columns ++ sql " " ++ target.2
  | .dropTable table ifExists cascade =>
    sql "drop table " ++ sqlIf ifExists "if exists " ++ table.2 ++ sqlIf cascade " cascade"
  | .createIndex p => createIndex p
  | .dropIndex name table ifExists cascade =>
    sql "drop index " ++ sqlIf ifExists "if exists " ++ name.2 ++ after " on " table ++
      sqlIf cascade " cascade"
  | .createSchema schema ifNotExists =>
    sql "create schema " ++ sqlIf ifNotExists "if not exists " ++ schema.2
  | .dropSchema schema ifExists cascade =>
    sql "drop schema " ++ sqlIf ifExists "if exists " ++ schema.2 ++ sqlIf cascade " cascade"
  | .createView p => createView p
  | .dropView name ifExists cascade materialized =>
    sql "drop " ++ sqlIf materialized "materialized " ++ sql "view " ++
      sqlIf ifExists "if exists " ++ name.2 ++ sqlIf cascade " cascade"
  | .alterTable p => alterTable p
  | .addColumn c => sql "add column " ++ c.2
  | .dropColumn c => sql "drop column " ++ c.2
  | .renameColumn c new => sql "rename column " ++ c.2 ++ sql " to " ++ new.2
  | .alterColumn p => alterColumn p
  | .addConstraint c => sql "add " ++ c.2
  | .dropConstraint name ifExists cascade =>
    sql "drop constraint " ++ sqlIf ifExists "if exists " ++ name.2 ++ sqlIf cascade " cascade"

end Layout

namespace Node

/-- The pieces of a tree below a parent of some kind. -/
def piecesIn (d : Dialect) : Node → Option Kind → List Piece :=
  para fun n s parent =>
    Layout.pieces d parent (s.map fun c => (c.1, c.2 (some n.kind)))

/-- The pieces of a tree. -/
def pieces (d : Dialect) (n : Node) : List Piece := n.piecesIn d none

end Node

end SqlTree
