import SqlTree.Tree.Shape

/-!
# Statement trees

A node is a shape whose children are nodes.  `Node.para` computes from the leaves up: the algebra
sees the node and every child together with what was computed for it.
-/

namespace SqlTree

/-- A node of a statement tree. -/
inductive Node where
  | mk (shape : Shape Node)

namespace Node

def shape : Node → Shape Node
  | .mk s => s

def kind (n : Node) : Kind := n.shape.kind

section Para

variable {β : Type} (alg : Node → Shape (Node × β) → β)

mutual

/-- The value of the algebra at a node. -/
def para : Node → β
  | .mk s => alg (.mk s) (paraShape s)

def paraOptional : Option Node → Option (Node × β)
  | none => none
  | some n => some (n, para n)

def paraList : List Node → List (Node × β)
  | [] => []
  | n :: ns => (n, para n) :: paraList ns

def paraItems : ListItems Node → ListItems (Node × β)
  | .primitive vs => .primitive vs
  | .expressions ns => .expressions (paraList ns)

def paraAggregate : Aggregate Node → Aggregate (Node × β)
  | ⟨a, b, c, d, e, f⟩ => ⟨a, paraList b, c, paraOptional d, paraOptional e, paraOptional f⟩

def paraOnConflict : OnConflict Node → OnConflict (Node × β)
  | ⟨a, b, c, d, e, f, g⟩ => ⟨paraList a, paraOptional b, paraOptional c, paraOptional d,
    paraList e, paraOptional f, g⟩

def paraSelect : Select Node → Select (Node × β)
  | ⟨a, b, c, d, e, f, g, h, i, j, k, l, m, n, o, p, q⟩ => ⟨paraOptional a, paraList b,
    paraList c, paraList d, paraOptional e, paraOptional f, paraOptional g, paraList h, paraList i,
    paraOptional j, paraOptional k, paraOptional l, paraOptional m, paraOptional n, paraOptional o,
    paraList p, paraOptional q⟩

def paraInsert : Insert Node → Insert (Node × β)
  | ⟨a, b, c, d, e, f, g, h, i, j, k⟩ => ⟨paraOptional a, paraList b, paraOptional c,
    paraOptional d, paraOptional e, paraOptional f, paraOptional g, h, i, j, paraOptional k⟩

def paraUpdate : Update Node → Update (Node × β)
  | ⟨a, b, c, d, e, f, g, h, i⟩ => ⟨paraOptional a, paraOptional b, paraList c, paraOptional d,
    paraList e, paraOptional f, paraOptional g, paraOptional h, paraOptional i⟩

def paraDelete : Delete Node → Delete (Node × β)
  | ⟨a, b, c, d, e, f, g, h, i⟩ => ⟨(a, para a), paraOptional b, paraList c, paraOptional d,
    paraOptional e, paraOptional f, paraOptional g, paraOptional h, paraOptional i⟩

def paraMerge : Merge Node → Merge (Node × β)
  | ⟨a, b, c, d⟩ => ⟨(a, para a), paraOptional b, paraList c, paraOptional d⟩

def paraCreateTable : CreateTable Node → CreateTable (Node × β)
  | ⟨a, b, c, d, e, f⟩ => ⟨(a, para a), paraList b, paraList c, d, e, f⟩

def paraColumnDefinition : ColumnDefinition Node → ColumnDefinition (Node × β)
  | ⟨a, b, c, d, e, f, g, h, i, j, k, l⟩ => ⟨(a, para a), (b, para b), paraOptional c, d, e, f,
    g, h, i, paraOptional j, paraOptional k, paraOptional l⟩

def paraGenerated : Generated Node → Generated (Node × β)
  | ⟨a, b, c, d, e⟩ => ⟨a, b, c, d, paraOptional e⟩

def paraReferences : References Node → References (Node × β)
  | ⟨a, b, c, d⟩ => ⟨(a, para a), paraList b, c, d⟩

def paraCreateIndex : CreateIndex Node → CreateIndex (Node × β)
  | ⟨a, b, c, d, e, f, g, h⟩ => ⟨(a, para a), paraOptional b, paraList c, d, e, f,
    paraOptional g, h⟩

def paraCreateView : CreateView Node → CreateView (Node × β)
  | ⟨a, b, c, d, e, f, g⟩ => ⟨(a, para a), paraList b, paraOptional c, d, e, f, g⟩

def paraAlterTable : AlterTable Node → AlterTable (Node × β)
  | ⟨a, b, c, d, e, f⟩ => ⟨(a, para a), paraOptional b, paraOptional c, paraList d,
    paraOptional e, paraOptional f⟩

def paraAlterColumn : AlterColumn Node → AlterColumn (Node × β)
  | ⟨a, b, c, d, e, f⟩ => ⟨(a, para a), paraOptional b, paraOptional c, d, e, f⟩

def paraShape : Shape Node → Shape (Node × β)
  | .identifier a => .identifier a
  | .schemableIdentifier a b => .schemableIdentifier (paraOptional a) (b, para b)
  | .table a => .table (a, para a)
  | .column a => .column (a, para a)
  | .selectAll => .selectAll
  | .reference a b => .reference (paraOptional a) (b, para b)
  | .aliased a b => .aliased (a, para a) (b, para b)
  | .value a b => .value a b
  | .valueList a => .valueList (paraItems a)
  | .values a => .values (paraList a)
  | .defaultInsertValue => .defaultInsertValue
  | .operator a => .operator a
  | .binaryOperation a b c => .binaryOperation (a, para a) (b, para b) (c, para c)
  | .unaryOperation a b => .unaryOperation (a, para a) (b, para b)
  | .and a b => .and (a, para a) (b, para b)
  | .or a b => .or (a, para a) (b, para b)
  | .parens a => .parens (a, para a)
  | .raw a b => .raw a (paraList b)
  | .function a b => .function a (paraList b)
  | .aggregateFunction p => .aggregateFunction (paraAggregate p)
  | .caseExpr a b c d => .caseExpr (paraOptional a) (paraList b) (paraOptional c) d
  | .when a b => .when (a, para a) (paraOptional b)
  | .cast a b => .cast (a, para a) (b, para b)
  | .window a b => .window (paraOptional a) (paraOptional b)
  | .partitionBy a => .partitionBy (paraList a)
  | .partitionByItem a => .partitionByItem (a, para a)
  | .matched a b => .matched a b
  | .selection a => .selection (a, para a)
  | .fromClause a => .fromClause (paraList a)
  | .join a b c => .join a (b, para b) (paraOptional c)
  | .onClause a => .onClause (a, para a)
  | .whereClause a => .whereClause (a, para a)
  | .having a => .having (a, para a)
  | .groupBy a => .groupBy (paraList a)
  | .groupByItem a => .groupByItem (a, para a)
  | .orderBy a => .orderBy (paraList a)
  | .orderByItem a b c => .orderByItem (a, para a) b c
  | .limit a => .limit (a, para a)
  | .offset a => .offset (a, para a)
  | .fetch a b => .fetch (a, para a) b
  | .top a b => .top (a, para a) b
  | .selectModifier a b c => .selectModifier a (paraOptional b) (paraList c)
  | .setOperation a b c => .setOperation a (b, para b) c
  | .withClause a b => .withClause (paraList a) b
  | .commonTableExpression a b c => .commonTableExpression (a, para a) b (c, para c)
  | .commonTableExpressionName a b => .commonTableExpressionName (a, para a) (paraList b)
  | .returning a => .returning (paraList a)
  | .columnUpdate a b => .columnUpdate (a, para a) (b, para b)
  | .onConflict p => .onConflict (paraOnConflict p)
  | .onDuplicateKey a => .onDuplicateKey (paraList a)
  | .explain a => .explain (paraOptional a)
  | .usingClause a => .usingClause (paraList a)
  | .selectQuery p => .selectQuery (paraSelect p)
  | .insertQuery p => .insertQuery (paraInsert p)
  | .updateQuery p => .updateQuery (paraUpdate p)
  | .deleteQuery p => .deleteQuery (paraDelete p)
  | .mergeQuery p => .mergeQuery (paraMerge p)
  | .createTable p => .createTable (paraCreateTable p)
  | .columnDefinition p => .columnDefinition (paraColumnDefinition p)
  | .dataType a => .dataType a
  | .defaultValue a => .defaultValue (a, para a)
  | .generated p => .generated (paraGenerated p)
  | .references p => .references (paraReferences p)
  | .primaryKeyConstraint a b => .primaryKeyConstraint (paraList a) (paraOptional b)
  | .uniqueConstraint a b c => .uniqueConstraint (paraList a) (paraOptional b) c
  | .checkConstraint a b => .checkConstraint (a, para a) (paraOptional b)
  | .foreignKeyConstraint a b c => .foreignKeyConstraint (paraList a) (b, para b)
    (paraOptional c)
  | .dropTable a b c => .dropTable (a, para a) b c
  | .createIndex p => .createIndex (paraCreateIndex p)
  | .dropIndex a b c d => .dropIndex (a, para a) (paraOptional b) c d
  | .createSchema a b => .createSchema (a, para a) b
  | .dropSchema a b c => .dropSchema (a, para a) b c
  | .createView p => .createView (paraCreateView p)
  | .dropView a b c d => .dropView (a, para a) b c d
  | .alterTable p => .alterTable (paraAlterTable p)
  | .addColumn a => .addColumn (a, para a)
  | .dropColumn a => .dropColumn (a, para a)
  | .renameColumn a b => .renameColumn (a, para a) (b, para b)
  | .alterColumn p => .alterColumn (paraAlterColumn p)
  | .addConstraint a => .addConstraint (a, para a)
  | .dropConstraint a b c => .dropConstraint (a, para a) b c

end

end Para

end Node

end SqlTree
