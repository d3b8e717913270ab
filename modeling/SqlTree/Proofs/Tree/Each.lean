import SqlTree.Tree.Field

/-!
# Shapes, form by form

`Shape.map` is computed by a traversal.  Here is the same function form by form, for proofs that
look at one form at a time, with the laws of both: mapping composes, keeps the kind, and maps the
fields and the children.
-/

namespace SqlTree

section Each

variable {α β : Type} (f : α → β)

def ListItems.each : ListItems α → ListItems β
  | .primitive vs => .primitive vs
  | .expressions as => .expressions (as.map f)

def Aggregate.each (p : Aggregate α) : Aggregate β :=
  ⟨p.name, p.arguments.map f, p.distinct, p.orderBy.map f, p.filter.map f, p.window.map f⟩

def OnConflict.each (p : OnConflict α) : OnConflict β :=
  ⟨p.columns.map f, p.constraint.map f, p.indexExpression.map f, p.indexWhere.map f,
    p.updates.map f, p.updateWhere.map f, p.doNothing⟩

def Select.each (p : Select α) : Select β :=
  ⟨p.fromClause.map f, p.selections.map f, p.distinctOn.map f, p.joins.map f, p.groupBy.map f,
    p.orderBy.map f, p.whereClause.map f, p.frontModifiers.map f, p.endModifiers.map f,
    p.limit.map f, p.offset.map f, p.fetch.map f, p.top.map f, p.withClause.map f, p.having.map f,
    p.setOperations.map f, p.explain.map f⟩

def Insert.each (p : Insert α) : Insert β :=
  ⟨p.into.map f, p.columns.map f, p.values.map f, p.returning.map f, p.onConflict.map f,
    p.onDuplicateKey.map f, p.withClause.map f, p.ignore, p.replace, p.defaultValues,
    p.explain.map f⟩

def Update.each (p : Update α) : Update β :=
  ⟨p.table.map f, p.fromClause.map f, p.joins.map f, p.whereClause.map f, p.updates.map f,
    p.returning.map f, p.withClause.map f, p.limit.map f, p.explain.map f⟩

def Delete.each (p : Delete α) : Delete β :=
  ⟨f p.fromClause, p.usingClause.map f, p.joins.map f, p.whereClause.map f, p.returning.map f,
    p.withClause.map f, p.orderBy.map f, p.limit.map f, p.explain.map f⟩

def Merge.each (p : Merge α) : Merge β :=
  ⟨f p.into, p.usingJoin.map f, p.branches.map f, p.withClause.map f⟩

def CreateTable.each (p : CreateTable α) : CreateTable β :=
  ⟨f p.table, p.columns.map f, p.constraints.map f, p.temporary, p.ifNotExists, p.onCommit⟩

def ColumnDefinition.each (p : ColumnDefinition α) : ColumnDefinition β :=
  ⟨f p.column, f p.dataType, p.references.map f, p.primaryKey, p.autoIncrement, p.unique,
    p.notNull, p.unsigned, p.nullsNotDistinct, p.defaultTo.map f, p.check.map f,
    p.generated.map f⟩

def Generated.each (p : Generated α) : Generated β :=
  ⟨p.byDefault, p.always, p.identity, p.stored, p.expression.map f⟩

def References.each (p : References α) : References β :=
  ⟨f p.table, p.columns.map f, p.onDelete, p.onUpdate⟩

def CreateIndex.each (p : CreateIndex α) : CreateIndex β :=
  ⟨f p.name, p.table.map f, p.columns.map f, p.unique, p.ifNotExists, p.method,
    p.whereClause.map f, p.nullsNotDistinct⟩

def CreateView.each (p : CreateView α) : CreateView β :=
  ⟨f p.name, p.columns.map f, p.query.map f, p.orReplace, p.temporary, p.materialized,
    p.ifNotExists⟩

def AlterTable.each (p : AlterTable α) : AlterTable β :=
  ⟨f p.table, p.renameTo.map f, p.setSchema.map f, p.columnAlterations.map f,
    p.addConstraint.map f, p.dropConstraint.map f⟩

def AlterColumn.each (p : AlterColumn α) : AlterColumn β :=
  ⟨f p.column, p.dataType.map f, p.setDefault.map f, p.dropDefault, p.setNotNull, p.dropNotNull⟩

/-- The shape with `f` applied to every child, form by form. -/
def Shape.each : Shape α → Shape β
  | .identifier a => .identifier a
  | .schemableIdentifier a b => .schemableIdentifier (a.map f) (f b)
  | .table a => .table (f a)
  | .column a => .column (f a)
  | .selectAll => .selectAll
  | .reference a b => .reference (a.map f) (f b)
  | .aliased a b => .aliased (f a) (f b)
  | .value a b => .value a b
  | .valueList a => .valueList (a.each f)
  | .values a => .values (a.map f)
  | .defaultInsertValue => .defaultInsertValue
  | .operator a => .operator a
  | .binaryOperation a b c => .binaryOperation (f a) (f b) (f c)
  | .unaryOperation a b => .unaryOperation (f a) (f b)
  | .and a b => .and (f a) (f b)
  | .or a b => .or (f a) (f b)
  | .parens a => .parens (f a)
  | .raw a b => .raw a (b.map f)
  | .function a b => .function a (b.map f)
  | .aggregateFunction p => .aggregateFunction (p.each f)
  | .caseExpr a b c d => .caseExpr (a.map f) (b.map f) (c.map f) d
  | .when a b => .when (f a) (b.map f)
  | .cast a b => .cast (f a) (f b)
  | .window a b => .window (a.map f) (b.map f)
  | .partitionBy a => .partitionBy (a.map f)
  | .partitionByItem a => .partitionByItem (f a)
  | .matched a b => .matched a b
  | .selection a => .selection (f a)
  | .fromClause a => .fromClause (a.map f)
  | .join a b c => .join a (f b) (c.map f)
  | .onClause a => .onClause (f a)
  | .whereClause a => .whereClause (f a)
  | .having a => .having (f a)
  | .groupBy a => .groupBy (a.map f)
  | .groupByItem a => .groupByItem (f a)
  | .orderBy a => .orderBy (a.map f)
  | .orderByItem a b c => .orderByItem (f a) b c
  | .limit a => .limit (f a)
  | .offset a => .offset (f a)
  | .fetch a b => .fetch (f a) b
  | .top a b => .top (f a) b
  | .selectModifier a b c => .selectModifier a (b.map f) (c.map f)
  | .setOperation a b c => .setOperation a (f b) c
  | .withClause a b => .withClause (a.map f) b
  | .commonTableExpression a b c => .commonTableExpression (f a) b (f c)
  | .commonTableExpressionName a b => .commonTableExpressionName (f a) (b.map f)
  | .returning a => .returning (a.map f)
  | .columnUpdate a b => .columnUpdate (f a) (f b)
  | .onConflict p => .onConflict (p.each f)
  | .onDuplicateKey a => .onDuplicateKey (a.map f)
  | .explain a => .explain (a.map f)
  | .usingClause a => .usingClause (a.map f)
  | .selectQuery p => .selectQuery (p.each f)
  | .insertQuery p => .insertQuery (p.each f)
  | .updateQuery p => .updateQuery (p.each f)
  | .deleteQuery p => .deleteQuery (p.each f)
  | .mergeQuery p => .mergeQuery (p.each f)
  | .createTable p => .createTable (p.each f)
  | .columnDefinition p => .columnDefinition (p.each f)
  | .dataType a => .dataType a
  | .defaultValue a => .defaultValue (f a)
  | .generated p => .generated (p.each f)
  | .references p => .references (p.each f)
  | .primaryKeyConstraint a b => .primaryKeyConstraint (a.map f) (b.map f)
  | .uniqueConstraint a b c => .uniqueConstraint (a.map f) (b.map f) c
  | .checkConstraint a b => .checkConstraint (f a) (b.map f)
  | .foreignKeyConstraint a b c => .foreignKeyConstraint (a.map f) (f b) (c.map f)
  | .dropTable a b c => .dropTable (f a) b c
  | .createIndex p => .createIndex (p.each f)
  | .dropIndex a b c d => .dropIndex (f a) (b.map f) c d
  | .createSchema a b => .createSchema (f a) b
  | .dropSchema a b c => .dropSchema (f a) b c
  | .createView p => .createView (p.each f)
  | .dropView a b c d => .dropView (f a) b c d
  | .alterTable p => .alterTable (p.each f)
  | .addColumn a => .addColumn (f a)
  | .dropColumn a => .dropColumn (f a)
  | .renameColumn a b => .renameColumn (f a) (f b)
  | .alterColumn p => .alterColumn (p.each f)
  | .addConstraint a => .addConstraint (f a)
  | .dropConstraint a b c => .dropConstraint (f a) b c

end Each

@[simp] theorem mapM_option_pure {α β : Type} (f : α → β) (o : Option α) :
    o.mapM (fun a => (pure (f a) : Id β)) = pure (o.map f) := by
  cases o <;> rfl

@[simp] theorem mapM_option_map {m : Type → Type} [Monad m] {α β γ : Type} (g : α → β)
    (f : β → m γ) (o : Option α) : (o.map g).mapM f = o.mapM fun a => f (g a) := by
  cases o <;> rfl

namespace Field

variable {α β : Type}

@[simp] theorem map_child (f : α → β) (slot : Slot) (a : α) :
    (child slot a).map f = .child slot (f a) := rfl

@[simp] theorem map_optional (f : α → β) (slot : Slot) (a : Option α) :
    (optional slot a).map f = .optional slot (a.map f) := rfl

@[simp] theorem map_children (f : α → β) (slot : Slot) (as : List α) :
    (children slot as).map f = .children slot (as.map f) := rfl

@[simp] theorem map_value (f : α → β) (v : Value) : (value v).map f = .value v := rfl

@[simp] theorem map_word {e : Type} [Named e] (f : α → β) (x : e) :
    (word x : Field α).map f = word x := rfl

@[simp] theorem map_optionalWord {e : Type} [Named e] (f : α → β) (x : Option e) :
    (optionalWord x : Field α).map f = optionalWord x := by
  cases x <;> rfl

@[simp] theorem map_flag (f : α → β) (b : Bool) : (flag b : Field α).map f = flag b := rfl

@[simp] theorem map_optionalFlag (f : α → β) (b : Option Bool) :
    (optionalFlag b : Field α).map f = optionalFlag b := by
  cases b <;> rfl

@[simp] theorem map_text (f : α → β) (s : String) : (text s : Field α).map f = text s := rfl

@[simp] theorem map_optionalText (f : α → β) (s : Option String) :
    (optionalText s : Field α).map f = optionalText s := by
  cases s <;> rfl

@[simp] theorem map_texts (f : α → β) (ss : List String) :
    (texts ss : Field α).map f = texts ss := rfl

theorem toList_map (f : α → β) (x : Field α) : (x.map f).toList = x.toList.map f := by
  cases x with
  | optional s a => cases a <;> rfl
  | items i => cases i <;> rfl
  | _ => rfl

end Field

namespace Shape

variable {α β γ : Type}

theorem map_eq_each (f : α → β) (s : Shape α) : s.map f = s.each f := by
  cases s with
  | valueList i =>
    cases i <;> simp [map, traverse, ListItems.traverse, each, ListItems.each]
  | _ =>
    simp [map, traverse, Aggregate.traverse, OnConflict.traverse, Select.traverse,
      Insert.traverse, Update.traverse, Delete.traverse, Merge.traverse, CreateTable.traverse,
      ColumnDefinition.traverse, Generated.traverse, References.traverse, CreateIndex.traverse,
      CreateView.traverse, AlterTable.traverse, AlterColumn.traverse, each, Aggregate.each,
      OnConflict.each, Select.each, Insert.each, Update.each, Delete.each, Merge.each,
      CreateTable.each, ColumnDefinition.each, Generated.each, References.each, CreateIndex.each,
      CreateView.each, AlterTable.each, AlterColumn.each]

theorem fields_each (f : α → β) (s : Shape α) :
    (s.each f).fields = s.fields.map fun x => (x.1, x.2.map f) := by
  cases s with
  | valueList i => cases i <;> rfl
  | _ =>
    simp [each, fields, Aggregate.each, Aggregate.fields, OnConflict.each, OnConflict.fields,
      Select.each, Select.fields, Insert.each, Insert.fields, Update.each, Update.fields,
      Delete.each, Delete.fields, Merge.each, Merge.fields, CreateTable.each, CreateTable.fields,
      ColumnDefinition.each, ColumnDefinition.fields, Generated.each, Generated.fields,
      References.each, References.fields, CreateIndex.each, CreateIndex.fields, CreateView.each,
      CreateView.fields, AlterTable.each, AlterTable.fields, AlterColumn.each,
      AlterColumn.fields]

theorem fields_map (f : α → β) (s : Shape α) :
    (s.map f).fields = s.fields.map fun x => (x.1, x.2.map f) := by
  rw [map_eq_each, fields_each]

@[simp] theorem children_map (f : α → β) (s : Shape α) :
    (s.map f).children = s.children.map f := by
  simp only [children, fields_map, List.flatMap_map, List.map_flatMap, Field.toList_map]

@[simp] theorem kind_map (f : α → β) (s : Shape α) : (s.map f).kind = s.kind := by
  rw [map_eq_each]
  cases s <;> rfl

theorem each_each (f : α → β) (g : β → γ) (s : Shape α) :
    (s.each f).each g = s.each (g ∘ f) := by
  cases s with
  | valueList i => cases i <;> simp [each, ListItems.each]
  | _ =>
    simp [each, Aggregate.each, OnConflict.each, Select.each, Insert.each, Update.each,
      Delete.each, Merge.each, CreateTable.each, ColumnDefinition.each, Generated.each,
      References.each, CreateIndex.each, CreateView.each, AlterTable.each, AlterColumn.each]

@[simp] theorem map_map (f : α → β) (g : β → γ) (s : Shape α) :
    (s.map f).map g = s.map (g ∘ f) := by
  rw [map_eq_each, map_eq_each, map_eq_each, each_each]

theorem each_id (s : Shape α) : s.each id = s := by
  cases s with
  | valueList i => cases i <;> simp [each, ListItems.each]
  | _ =>
    simp [each, Aggregate.each, OnConflict.each, Select.each, Insert.each, Update.each,
      Delete.each, Merge.each, CreateTable.each, ColumnDefinition.each, Generated.each,
      References.each, CreateIndex.each, CreateView.each, AlterTable.each, AlterColumn.each]

@[simp] theorem map_id (s : Shape α) : s.map id = s := by
  rw [map_eq_each, each_id]

theorem traverse_each {m : Type → Type} [Monad m] [LawfulMonad m] (g : α → β)
    (f : Slot → β → m γ) (s : Shape α) :
    (s.each g).traverse f = s.traverse fun slot a => f slot (g a) := by
  cases s with
  | valueList i =>
    cases i <;>
      simp [each, ListItems.each, traverse, ListItems.traverse, List.mapM_map, Function.comp_def]
  | _ =>
    simp [traverse, Aggregate.traverse, OnConflict.traverse, Select.traverse, Insert.traverse,
      Update.traverse, Delete.traverse, Merge.traverse, CreateTable.traverse,
      ColumnDefinition.traverse, Generated.traverse, References.traverse, CreateIndex.traverse,
      CreateView.traverse, AlterTable.traverse, AlterColumn.traverse, each, Aggregate.each,
      OnConflict.each, Select.each, Insert.each, Update.each, Delete.each, Merge.each,
      CreateTable.each, ColumnDefinition.each, Generated.each, References.each, CreateIndex.each,
      CreateView.each, AlterTable.each, AlterColumn.each, List.mapM_map, Function.comp_def]

theorem traverse_map {m : Type → Type} [Monad m] [LawfulMonad m] (g : α → β)
    (f : Slot → β → m γ) (s : Shape α) :
    (s.map g).traverse f = s.traverse fun slot a => f slot (g a) := by
  rw [map_eq_each, traverse_each]

end Shape

end SqlTree
