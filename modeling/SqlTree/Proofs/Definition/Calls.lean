import SqlTree.Build.Start
import SqlTree.Proofs.Condition.Calls
import SqlTree.Proofs.Definition.Columns

/-!
# Definitions put together call by call

Whatever calls make or change a table, an index or a view, the statement binds the lists of values
that stand in it and nothing else: lists that are defaults, and lists in the filter of an index.
Plain values are written into it, and so are all values of the query of a view
(`Definition.binds_lists`).
-/

namespace SqlTree

open Node

/-- A table that is made, whose columns bind these values. -/
structure CreateTable.Binds (p : CreateTable Node) (vs : List Value) : Prop where
  table : Slotted.ValueFree [(.only .table, p.table)]
  columns : Slotted.Binds (p.columns.map (.only .columnDefinition, ·)) vs
  constraints : Slotted.ValueFree (p.constraints.map (.any, ·))

theorem CreateTable.Binds.node {p : CreateTable Node} {vs : List Value} (h : p.Binds vs) :
    p.node.Binds vs := by
  refine binds_mk (s := .createTable p) ?_ rfl rfl (not_isTest_of_kind rfl)
  simpa [Shape.slotted, Shape.fields, CreateTable.fields] using
    h.table.binds.append (h.columns.append h.constraints.binds)

/-- The calls that make a table. -/
inductive CreateTableCall where
  | addColumn (name dataType : String) (calls : List ColumnCall)
  | addConstraint (c : Constraint)
  | temporary
  | ifNotExists
  | onCommit (action : String)

namespace CreateTableCall

def apply (p : CreateTable Node) : CreateTableCall → Except Error (CreateTable Node)
  | .addColumn name dataType calls => p.addColumn name dataType (calls.foldlM ColumnCall.apply)
  | .addConstraint c => return p.addConstraint (← c.node)
  | .temporary => .ok { p with temporary := true }
  | .ifNotExists => .ok { p with ifNotExists := true }
  | .onCommit action => p.onCommitDo action

/-- The lists in the columns after a call. -/
def next (vs : List Value) : CreateTableCall → List Value
  | .addColumn _ _ calls => vs ++ ColumnCall.listed calls
  | _ => vs

/-- The lists in the columns in the end. -/
def listed (ks : List CreateTableCall) : List Value := ks.foldl next []

theorem binds_of_apply {p p' : CreateTable Node} {vs : List Value} {k : CreateTableCall}
    (h : p.Binds vs) (hk : k.apply p = .ok p') : p'.Binds (next vs k) := by
  cases k with
  | addColumn name dataType calls =>
    obtain ⟨c, hc, hk⟩ := exists_of_bind_eq_ok hk
    obtain ⟨c', hc', hk⟩ := exists_of_bind_eq_ok hk
    cases hk
    have hcolumn := ColumnCall.binds_of_foldlM hc hc'
    refine { h with columns := ?_ }
    rw [List.map_append]
    exact h.columns.append (.single rfl hcolumn)
  | addConstraint c =>
    obtain ⟨n, hn, hk⟩ := exists_of_bind_eq_ok hk
    cases hk
    refine { h with constraints := ?_ }
    show Slotted.ValueFree ((p.constraints ++ [n]).map _)
    rw [List.map_append]
    exact Slotted.valueFree_append.mpr
      ⟨h.constraints, Slotted.valueFree_singleton.mpr ⟨rfl, c.valueFree_node hn⟩⟩
  | onCommit action =>
    obtain ⟨a, -, hk⟩ := exists_of_bind_eq_ok hk
    cases hk
    exact { h with }
  | _ =>
    cases hk
    exact { h with }

end CreateTableCall

/-- The one change of a column. -/
inductive ColumnChange where
  | toType (dataType : String)
  | toDefault (v : Given)
  | dropDefault
  | setNotNull
  | dropNotNull

namespace ColumnChange

def apply (p : AlterColumn Node) : ColumnChange → Except Error (AlterColumn Node)
  | .toType dataType => p.toType dataType
  | .toDefault v => .ok (p.toDefault v.operand)
  | .dropDefault => .ok { p with dropDefault := true }
  | .setNotNull => .ok { p with setNotNull := true }
  | .dropNotNull => .ok { p with dropNotNull := true }

/-- The list that becomes the default. -/
def listed : ColumnChange → List Value
  | .toDefault v => v.listed
  | _ => []

theorem binds_of_apply {column : Node} {p : AlterColumn Node} {k : ColumnChange}
    (hcolumn : (Slot.only .column).admits column.kind = true ∧ column.ValueFree)
    (hk : k.apply { column } = .ok p) : Node.Binds ⟨.alterColumn p⟩ k.listed := by
  have hfree : Slotted.ValueFree [(.only .column, column)] :=
    Slotted.valueFree_singleton.mpr hcolumn
  cases k with
  | toType dataType =>
    obtain ⟨t, ht, hk⟩ := exists_of_bind_eq_ok hk
    cases hk
    exact ValueFree.binds (valueFree_mk.mpr ⟨rfl, List.forall_mem_cons.mpr ⟨hcolumn,
      Slotted.valueFree_singleton.mpr ⟨rfl, Read.valueFree_dataType ht⟩⟩⟩)
  | toDefault v =>
    cases hk
    exact binds_mk (s := .alterColumn { column, setDefault := some v.operand.inline })
      (hfree.binds.append (.single rfl v.binds_inline)) rfl rfl (not_isTest_of_kind rfl)
  | _ =>
    cases hk
    exact ValueFree.binds (valueFree_mk.mpr ⟨rfl, hfree⟩)

end ColumnChange

/-- A table that is changed, whose changes of columns bind these values. -/
structure AlterTable.Binds (p : AlterTable Node) (vs : List Value) : Prop where
  table : Slotted.ValueFree [(.only .table, p.table)]
  renameTo : Slotted.ValueFree (p.renameTo.toList.map (.only .table, ·))
  setSchema : Slotted.ValueFree (p.setSchema.toList.map (.only .identifier, ·))
  columnAlterations : Slotted.Binds (p.columnAlterations.map (.any, ·)) vs
  addConstraint : Slotted.ValueFree (p.addConstraint.toList.map (.only .addConstraint, ·))
  dropConstraint : Slotted.ValueFree (p.dropConstraint.toList.map (.only .dropConstraint, ·))

theorem AlterTable.Binds.node {p : AlterTable Node} {vs : List Value} (h : p.Binds vs) :
    p.node.Binds vs := by
  refine binds_mk (s := .alterTable p) ?_ rfl rfl (not_isTest_of_kind rfl)
  simpa [Shape.slotted, Shape.fields, AlterTable.fields] using
    h.table.binds.append (h.renameTo.binds.append (h.setSchema.binds.append
      (h.columnAlterations.append (h.addConstraint.binds.append h.dropConstraint.binds))))

theorem AlterTable.Binds.alteration {p : AlterTable Node} {vs ws : List Value} {n : Node}
    (h : p.Binds vs) (hn : n.Binds ws) : (p.alteration n).Binds (vs ++ ws) := by
  refine { h with columnAlterations := ?_ }
  rw [AlterTable.alteration, List.map_append]
  exact h.columnAlterations.append (.single rfl hn)

theorem AlterTable.Binds.cascading {p : AlterTable Node} {vs : List Value} (h : p.Binds vs) :
    p.cascading.Binds vs := by
  unfold AlterTable.cascading
  split
  · rename_i name ifExists cascade hdrop
    have hfree : ValueFree ⟨.dropConstraint name ifExists cascade⟩ :=
      (h.dropConstraint (.only .dropConstraint, _) (by simp [hdrop])).2
    exact { h with
      dropConstraint := Slotted.valueFree_singleton.mpr
        ⟨rfl, valueFree_mk.mpr ⟨rfl, (valueFree_mk.mp hfree).2⟩⟩ }
  · exact h

/-- The calls that change a table. -/
inductive AlterTableCall where
  | renameTo (table : String)
  | setSchema (schema : String)
  | addColumn (name dataType : String) (calls : List ColumnCall)
  | dropColumn (name : String)
  | renameColumn (name newName : String)
  | alterColumn (name : String) (change : ColumnChange)
  | addConstraint (c : Constraint)
  | dropConstraint (name : String) (ifExists : Bool)
  | cascade

namespace AlterTableCall

def apply (p : AlterTable Node) : AlterTableCall → Except Error (AlterTable Node)
  | .renameTo table => p.renamedTo table
  | .setSchema schema => p.movedTo schema
  | .addColumn name dataType calls => p.addColumn name dataType (calls.foldlM ColumnCall.apply)
  | .dropColumn name => p.dropColumn name
  | .renameColumn name newName => p.renameColumn name newName
  | .alterColumn name change => p.alterColumn name (change.apply ·)
  | .addConstraint c => return p.withConstraint (← c.node)
  | .dropConstraint name ifExists => p.dropping name ifExists
  | .cascade => .ok p.cascading

/-- The lists in the changes of columns after a call. -/
def next (vs : List Value) : AlterTableCall → List Value
  | .addColumn _ _ calls => vs ++ ColumnCall.listed calls
  | .alterColumn _ change => vs ++ change.listed
  | _ => vs

/-- The lists in the changes of columns in the end. -/
def listed (ks : List AlterTableCall) : List Value := ks.foldl next []

theorem binds_of_apply {p p' : AlterTable Node} {vs : List Value} {k : AlterTableCall}
    (h : p.Binds vs) (hk : k.apply p = .ok p') : p'.Binds (next vs k) := by
  have hfree : ∀ {n : Node}, n.ValueFree → (p.alteration n).Binds vs := by
    intro n hn
    have hmore := h.alteration hn.binds
    rwa [List.append_nil] at hmore
  cases k with
  | renameTo table =>
    obtain ⟨t, ht, hk⟩ := exists_of_bind_eq_ok hk
    cases hk
    exact { h with renameTo := Slotted.valueFree_singleton.mpr (Read.valueFree_table ht) }
  | setSchema schema =>
    obtain ⟨n, hn, hk⟩ := exists_of_bind_eq_ok hk
    cases hk
    exact { h with setSchema := Slotted.valueFree_singleton.mpr (Read.valueFree_identifier hn) }
  | addColumn name dataType calls =>
    obtain ⟨c, hc, hk⟩ := exists_of_bind_eq_ok hk
    obtain ⟨c', hc', hk⟩ := exists_of_bind_eq_ok hk
    cases hk
    have hcolumn := ColumnCall.binds_of_foldlM hc hc'
    exact h.alteration (binds_mk (s := .addColumn c'.node) (.single rfl hcolumn) rfl rfl
      (not_isTest_of_kind rfl))
  | dropColumn name =>
    obtain ⟨c, hc, hk⟩ := exists_of_bind_eq_ok hk
    cases hk
    exact hfree (valueFree_mk.mpr ⟨rfl, Slotted.valueFree_singleton.mpr (Read.valueFree_column hc)⟩)
  | renameColumn name newName =>
    obtain ⟨c, hc, hk⟩ := exists_of_bind_eq_ok hk
    obtain ⟨c', hc', hk⟩ := exists_of_bind_eq_ok hk
    cases hk
    exact hfree (valueFree_mk.mpr ⟨rfl, List.forall_mem_cons.mpr
      ⟨Read.valueFree_column hc, Slotted.valueFree_singleton.mpr (Read.valueFree_column hc')⟩⟩)
  | alterColumn name change =>
    obtain ⟨c, hc, hk⟩ := exists_of_bind_eq_ok hk
    obtain ⟨q, hq, hk⟩ := exists_of_bind_eq_ok hk
    cases hk
    exact h.alteration (ColumnChange.binds_of_apply (Read.valueFree_column hc) hq)
  | addConstraint c =>
    obtain ⟨n, hn, hk⟩ := exists_of_bind_eq_ok hk
    cases hk
    exact { h with
      addConstraint := Slotted.valueFree_singleton.mpr ⟨rfl, valueFree_mk.mpr
        ⟨rfl, Slotted.valueFree_singleton.mpr ⟨rfl, c.valueFree_node hn⟩⟩⟩ }
  | dropConstraint name ifExists =>
    obtain ⟨n, hn, hk⟩ := exists_of_bind_eq_ok hk
    cases hk
    exact { h with
      dropConstraint := Slotted.valueFree_singleton.mpr ⟨rfl, valueFree_mk.mpr
        ⟨rfl, Slotted.valueFree_singleton.mpr (Read.valueFree_identifier hn)⟩⟩ }
  | cascade =>
    cases hk
    exact h.cascading

end AlterTableCall

/-- A filter that binds these values, or none. -/
inductive FilterBinds : Option Node → List Value → Prop
  | empty : FilterBinds none []
  | clause {c : Node} {vs : List Value} (h : c.Binds vs) : FilterBinds (some ⟨.whereClause c⟩) vs

namespace FilterBinds

variable {clause : Option Node} {c : Node} {vs ws : List Value}

theorem slotted (h : FilterBinds clause vs) :
    Slotted.Binds (clause.toList.map (.only .whereClause, ·)) vs := by
  cases h with
  | empty => exact .nil
  | @clause c _ h =>
    exact .single rfl (binds_mk (s := .whereClause c) (.single rfl h) rfl rfl
      (not_isTest_of_kind rfl))

theorem whereBoth (h : FilterBinds clause vs) (hc : c.Binds ws) :
    FilterBinds (some (.whereBoth clause c)) (vs ++ ws) := by
  cases h with
  | empty => exact .clause hc
  | @clause b _ h =>
    have hboth := binds_mk (s := .and b c) (.cons rfl h (.single rfl hc)) rfl rfl
      (not_isTest_of_kind rfl)
    exact .clause hboth

end FilterBinds

/-- An index whose filter binds these values. -/
structure CreateIndex.Binds (p : CreateIndex Node) (vs : List Value) : Prop where
  name : Slotted.ValueFree [(.only .identifier, p.name)]
  table : Slotted.ValueFree (p.table.toList.map (.only .table, ·))
  columns : Slotted.ValueFree (p.columns.map (.any, ·))
  whereClause : FilterBinds p.whereClause vs

theorem CreateIndex.Binds.node {p : CreateIndex Node} {vs : List Value} (h : p.Binds vs) :
    p.node.Binds vs := by
  refine binds_mk (s := .createIndex p) ?_ rfl rfl (not_isTest_of_kind rfl)
  simpa [Shape.slotted, Shape.fields, CreateIndex.fields] using
    h.name.binds.append (h.table.binds.append (h.columns.binds.append h.whereClause.slotted))

/-- A column of an index binds nothing. -/
theorem CreateIndex.valueFree_column {input : String} {n : Node} (h : column input = .ok n) :
    n.ValueFree := by
  unfold column at h
  split at h
  · obtain ⟨c, hc, h⟩ := exists_of_bind_eq_ok h
    split at h
    · cases h
      exact valueFree_mk.mpr
        ⟨rfl, Slotted.valueFree_singleton.mpr ⟨rfl, (Read.valueFree_column hc).2⟩⟩
    · cases h
  · exact (Read.valueFree_column h).2

/-- Terms without a value that is bound, as arguments of calls. -/
abbrev FreeTerm := { l : Term // ∀ n, l = .node n → n.ValueFree }

theorem FreeTerm.valueFree_reference {l : FreeTerm} {n : Node} (h : l.1.reference = .ok n) :
    n.ValueFree := by
  obtain ⟨l, hl⟩ := l
  cases l with
  | text s => exact (Read.ofNames_reference h).valueFree
  | node m =>
    cases h
    exact hl n rfl

/-- A comparison in a definition binds the list that it compares with. -/
theorem Given.binds_comparison {n : Node} (hn : n.ValueFree) (op : Operator) (g : Given) :
    (n.comparison op (.node g.operand.inline)).Binds g.listed := by
  have hop : ValueFree ⟨.operator op⟩ := valueFree_mk.mpr ⟨rfl, Slotted.valueFree_nil⟩
  cases g with
  | plain v =>
    -- A test for a truth value that is written out may become a comparison with a bit.
    have hv : ValueFree (.literal v) := ⟨rfl, rfl⟩
    exact ValueFree.binds (valueFree_mk.mpr ⟨rfl, List.forall_mem_cons.mpr
      ⟨⟨rfl, hn⟩, List.forall_mem_cons.mpr
        ⟨⟨rfl, hop⟩, Slotted.valueFree_singleton.mpr ⟨rfl, hv⟩⟩⟩⟩)
  | list vs =>
    have hlist := (Given.list vs).binds_inline
    refine binds_mk (s := .binaryOperation n ⟨.operator op⟩ _)
      (.cons rfl hn.binds (.cons rfl hop.binds (.single rfl hlist))) rfl rfl fun ht => ?_
    obtain ⟨-, b, i, h⟩ := isTest_binaryOperation.mp ht
    rw [operand, Operand.inline, Operand.list_values] at h
    cases h

/-- The calls that make an index. -/
inductive CreateIndexCall where
  | onTable (table : String)
  | columns (names : List String)
  | expression (e : FreeNode)
  | unique
  | nullsNotDistinct
  | ifNotExists
  | byMethod (name : String)
  | compare (left : FreeTerm) (operator : String) (right : Given)
  | filter (c : FreeNode)

namespace CreateIndexCall

def apply (p : CreateIndex Node) : CreateIndexCall → Except Error (CreateIndex Node)
  | .onTable table => p.onTable table
  | .columns names => p.overColumns names
  | .expression e => .ok (p.overExpression e.1)
  | .unique => .ok { p with unique := true }
  | .nullsNotDistinct => .ok { p with nullsNotDistinct := true }
  | .ifNotExists => .ok { p with ifNotExists := true }
  | .byMethod name => p.byMethod name
  | .compare l operator r => p.whereCompare l.1 operator r.operand
  | .filter c => .ok (p.whereNode c.1)

/-- The lists in the filter after a call. -/
def next (vs : List Value) : CreateIndexCall → List Value
  | .compare _ _ r => vs ++ r.listed
  | _ => vs

/-- The lists in the filter in the end. -/
def listed (ks : List CreateIndexCall) : List Value := ks.foldl next []

theorem binds_of_apply {p p' : CreateIndex Node} {vs : List Value} {k : CreateIndexCall}
    (h : p.Binds vs) (hk : k.apply p = .ok p') : p'.Binds (next vs k) := by
  have hcolumns : ∀ {ns : List Node}, (∀ n ∈ ns, n.ValueFree) →
      Slotted.ValueFree ((p.columns ++ ns).map (.any, ·)) := by
    intro ns hns
    rw [List.map_append]
    refine Slotted.valueFree_append.mpr ⟨h.columns, List.forall_mem_map.mpr fun n hn => ?_⟩
    exact ⟨rfl, hns n hn⟩
  cases k with
  | onTable table =>
    obtain ⟨t, ht, hk⟩ := exists_of_bind_eq_ok hk
    cases hk
    exact { h with table := Slotted.valueFree_singleton.mpr (Read.valueFree_table ht) }
  | columns names =>
    obtain ⟨ns, hns, hk⟩ := exists_of_bind_eq_ok hk
    cases hk
    exact { h with
      columns := hcolumns (forall_mem_of_mapM_eq_ok CreateIndex.valueFree_column hns) }
  | expression e =>
    cases hk
    have hparens : ValueFree e.1.parens :=
      valueFree_mk.mpr ⟨rfl, Slotted.valueFree_singleton.mpr ⟨rfl, e.2⟩⟩
    exact { h with columns := hcolumns (List.forall_mem_singleton.mpr hparens) }
  | byMethod name =>
    obtain ⟨m, -, hk⟩ := exists_of_bind_eq_ok hk
    cases hk
    exact { h with }
  | compare l operator r =>
    obtain ⟨c, hc, hk⟩ := exists_of_bind_eq_ok hk
    cases hk
    obtain ⟨n, op, hn, -, rfl⟩ := Term.eq_comparison_of_compare hc
    exact { h with
      whereClause := h.whereClause.whereBoth
        (r.binds_comparison (FreeTerm.valueFree_reference hn) op) }
  | filter c =>
    cases hk
    refine { h with whereClause := ?_ }
    have hmore := h.whereClause.whereBoth c.2.binds
    rwa [List.append_nil] at hmore
  | _ =>
    cases hk
    exact { h with }

end CreateIndexCall

/-- A view that binds nothing. -/
structure CreateView.ValueFree (p : CreateView Node) : Prop where
  name : Slotted.ValueFree [(.only .schemableIdentifier, p.name)]
  columns : Slotted.ValueFree (p.columns.map (.only .column, ·))
  query : Slotted.ValueFree (p.query.toList.map (.any, ·))

theorem CreateView.ValueFree.node {p : CreateView Node} (h : p.ValueFree) : p.node.ValueFree := by
  refine valueFree_mk.mpr ⟨rfl, ?_⟩
  simpa [Shape.slotted, Shape.fields, CreateView.fields] using Slotted.valueFree_append.mpr
    ⟨h.name, Slotted.valueFree_append.mpr ⟨h.columns, h.query⟩⟩

/-- The calls that make a view, which may show any query. -/
inductive CreateViewCall where
  | columns (names : List String)
  | showing (query : Node)
  | orReplace
  | temporary
  | materialized
  | ifNotExists

namespace CreateViewCall

def apply (p : CreateView Node) : CreateViewCall → Except Error (CreateView Node)
  | .columns names => p.withColumns names
  | .showing query => p.showing query
  | .orReplace => .ok { p with orReplace := true }
  | .temporary => .ok { p with temporary := true }
  | .materialized => .ok { p with materialized := true }
  | .ifNotExists => .ok { p with ifNotExists := true }

theorem valueFree_of_apply {p p' : CreateView Node} {k : CreateViewCall} (h : p.ValueFree)
    (hk : k.apply p = .ok p') : p'.ValueFree := by
  cases k with
  | columns names =>
    obtain ⟨ns, hns, hk⟩ := exists_of_bind_eq_ok hk
    cases hk
    exact { h with columns := Read.valueFree_columns hns }
  | showing query =>
    obtain ⟨q, hq, hk⟩ := exists_of_bind_eq_ok hk
    cases hk
    have hw : query.wellFormed = true :=
      wellFormed_of_transformBelow_eq_ok (fun n _ => kind_inlined n) query [] hq
    rw [inlineAll_eq_rewrite hw] at hq
    cases hq
    exact { h with
      query := Slotted.valueFree_singleton.mpr ⟨rfl, valueFree_rewrite_inlined hw⟩ }
  | _ =>
    cases hk
    exact { h with }

end CreateViewCall

/-- A definition: what it defines or alters, and the calls it is put together by. -/
inductive Definition where
  | createTable (name : String) (calls : List CreateTableCall)
  | alterTable (name : String) (calls : List AlterTableCall)
  | createIndex (name : String) (calls : List CreateIndexCall)
  | createView (name : String) (calls : List CreateViewCall)

namespace Definition

section Built

variable {κ τ : Type} {begin : Except Error τ} {apply : τ → κ → Except Error τ} {node : τ → Node}
  {calls : List κ}

def built (begin : Except Error τ) (apply : τ → κ → Except Error τ) (node : τ → Node)
    (calls : List κ) : Except Error Node := do
  return node (← calls.foldlM apply (← begin))

theorem exists_of_built {n : Node} (h : built begin apply node calls = .ok n) :
    ∃ p p', begin = .ok p ∧ calls.foldlM apply p = .ok p' ∧ node p' = n := by
  obtain ⟨p, hp, h⟩ := exists_of_bind_eq_ok h
  obtain ⟨p', hcalls, h⟩ := exists_of_bind_eq_ok h
  cases h
  exact ⟨p, p', hp, hcalls, rfl⟩

end Built

/-- The statement that the calls make. -/
def node : Definition → Except Error Node
  | createTable name calls =>
    built (Start.createTable name) CreateTableCall.apply CreateTable.node calls
  | alterTable name calls =>
    built (Start.alterTable name) AlterTableCall.apply AlterTable.node calls
  | createIndex name calls =>
    built (Start.createIndex name) CreateIndexCall.apply CreateIndex.node calls
  | createView name calls =>
    built (Start.createView name) CreateViewCall.apply CreateView.node calls

/-- The values of the lists that stand in the statement; a view has none but inlined ones. -/
def listed : Definition → List Value
  | createTable _ calls => CreateTableCall.listed calls
  | alterTable _ calls => AlterTableCall.listed calls
  | createIndex _ calls => CreateIndexCall.listed calls
  | createView _ _ => []

theorem binds_of_node {f : Definition} {n : Node} (h : f.node = .ok n) : n.Binds f.listed := by
  cases f with
  | createTable name calls =>
    obtain ⟨p, p', hp, hcalls, rfl⟩ := exists_of_built h
    obtain ⟨t, ht, hp⟩ := exists_of_bind_eq_ok hp
    cases hp
    have hbegin : CreateTable.Binds { table := t } [] :=
      ⟨Slotted.valueFree_singleton.mpr (Read.valueFree_table ht), .nil, Slotted.valueFree_nil⟩
    exact (holds_of_foldlM CreateTableCall.binds_of_apply hbegin hcalls).node
  | alterTable name calls =>
    obtain ⟨p, p', hp, hcalls, rfl⟩ := exists_of_built h
    obtain ⟨t, ht, hp⟩ := exists_of_bind_eq_ok hp
    cases hp
    have hbegin : AlterTable.Binds { table := t } [] :=
      ⟨Slotted.valueFree_singleton.mpr (Read.valueFree_table ht), Slotted.valueFree_nil,
        Slotted.valueFree_nil, .nil, Slotted.valueFree_nil, Slotted.valueFree_nil⟩
    exact (holds_of_foldlM AlterTableCall.binds_of_apply hbegin hcalls).node
  | createIndex name calls =>
    obtain ⟨p, p', hp, hcalls, rfl⟩ := exists_of_built h
    obtain ⟨i, hi, hp⟩ := exists_of_bind_eq_ok hp
    cases hp
    have hbegin : CreateIndex.Binds { name := i } [] :=
      ⟨Slotted.valueFree_singleton.mpr (Read.valueFree_identifier hi), Slotted.valueFree_nil,
        Slotted.valueFree_nil, .empty⟩
    exact (holds_of_foldlM CreateIndexCall.binds_of_apply hbegin hcalls).node
  | createView name calls =>
    obtain ⟨p, p', hp, hcalls, rfl⟩ := exists_of_built h
    obtain ⟨v, hv, hp⟩ := exists_of_bind_eq_ok hp
    cases hp
    have hbegin : CreateView.ValueFree { name := v } :=
      ⟨Slotted.valueFree_singleton.mpr (OfNames.valueFree_only (Read.ofNames_schemable hv)),
        Slotted.valueFree_nil, Slotted.valueFree_nil⟩
    exact (stays_of_foldlM CreateViewCall.valueFree_of_apply hbegin hcalls).node.binds

/-- In every dialect that has it a definition binds the lists that stand in it, in their order, and
no other value. -/
theorem binds_lists {f : Definition} {n : Node} (hn : f.node = .ok n) {d : Dialect} {c : Compiled}
    (hc : n.compile d = .ok c) : c.parameters = f.listed :=
  (binds_of_node hn).compile hc

/-- A column that keeps a list as its default after one whose list is replaced, and a view of the
rows with one value. -/
theorem binds_lists_table :
    let table : Definition := .createTable "t" [
      .addColumn "a" "integer" [.defaultTo (.list [.int 1]), .defaultTo (.plain (.int 2))],
      .addColumn "b" "integer" [.defaultTo (.list [.int 3, .null]), .notNull]]
    let query : Node := ⟨.selectQuery {
      selections := [⟨.selection ⟨.selectAll⟩⟩]
      whereClause := some ⟨.whereClause (.binary (.column "a") .eq (.bound (.int 1)))⟩ }⟩
    let view : Definition := .createView "v" [.showing query, .orReplace]
    (∃ n, table.node = .ok n ∧
      ∀ d, ∃ c, n.compile d = .ok c ∧ c.parameters = [.int 3, .null]) ∧
    ∃ n, view.node = .ok n ∧ ∀ d, ∃ c, n.compile d = .ok c ∧ c.parameters = [] := by
  intro table query view
  have hcompile : ∀ (n : Node) (d : Dialect), n.wellFormed = true →
      Piece.refusal? ((n.rewrite d.adapt).pieces d) = none → ∃ c, n.compile d = .ok c :=
    fun n d hw hr => ⟨_, Node.compile_of_no_refusal hw hr⟩
  constructor
  · refine ⟨_, rfl, fun d => (hcompile _ d ?_ ?_).imp fun c hc => ⟨hc, ?_⟩⟩
    · rfl
    · cases d <;> rfl
    · exact binds_lists (f := table) rfl hc
  · refine ⟨_, rfl, fun d => (hcompile _ d ?_ ?_).imp fun c hc => ⟨hc, ?_⟩⟩
    · rfl
    · cases d <;> rfl
    · exact binds_lists (f := view) rfl hc

/-- An index of the rows whose `a` is in a list, which the definition binds. -/
theorem not_binds_nothing :
    let index : Definition := .createIndex "i" [.onTable "t", .columns ["a"],
      .compare ⟨.text "a", nofun⟩ "in" (.list [.int 1, .int 2])]
    (∃ n, index.node = .ok n ∧ n.compile .postgres = .ok ⟨n,
      "create index \"i\" on \"t\" (\"a\") where \"a\" in ($1, $2)", [.int 1, .int 2]⟩) ∧
    ¬ ∀ {f : Definition} {n : Node} {d : Dialect} {c : Compiled}, f.node = .ok n →
      n.compile d = .ok c → c.parameters = [] := by
  intro index
  have hbound : ∃ n, index.node = .ok n ∧ n.compile .postgres = .ok ⟨n,
      "create index \"i\" on \"t\" (\"a\") where \"a\" in ($1, $2)", [.int 1, .int 2]⟩ :=
    ⟨_, rfl, rfl⟩
  refine ⟨hbound, fun hnone => ?_⟩
  obtain ⟨n, hn, hc⟩ := hbound
  cases hnone hn hc

end Definition

end SqlTree
