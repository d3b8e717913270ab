import SqlTree.Build.Table
import SqlTree.Proofs.Definition.Binding

/-!
# Columns as they are defined

The values that columns are given by default are written into the definition, but a list is bound:
whatever calls put a column together, it binds the list that is its default
(`ColumnCall.binds_of_foldlM`).  Constraints bind nothing (`Constraint.valueFree_node`).
-/

namespace SqlTree

open Node

/-- What a call is given as a value. -/
inductive Given where
  | plain (v : Value)
  | list (vs : List Value)

namespace Given

def operand : Given → Operand
  | .plain v => .value v
  | .list vs => .node (Operand.list (vs.map .value))

/-- The values of a list. -/
def listed : Given → List Value
  | .plain _ => []
  | .list vs => vs

end Given

theorem Operand.list_values (vs : List Value) :
    Operand.list (vs.map .value) = ⟨.valueList (.primitive vs)⟩ := by
  have h : (vs.map Operand.value).mapM Operand.value? = some vs := by
    induction vs with
    | nil => rfl
    | cons v vs ih => simp [ih, Operand.value?]
  rw [list, h]

theorem Given.binds_inline (g : Given) : g.operand.inline.Binds g.listed := by
  cases g with
  | plain v => exact ValueFree.binds ⟨rfl, rfl⟩
  | list vs =>
    rw [operand, Operand.inline, Operand.list_values]
    have h := binds_mk (s := .valueList (.primitive vs)) .nil rfl rfl (not_isTest_of_kind rfl)
    rwa [List.append_nil] at h

/-- Trees without a value that is bound, as arguments of calls. -/
abbrev FreeNode := { n : Node // n.ValueFree }

section Steps

variable {κ τ ν : Type} {apply : τ → κ → Except Error τ} {next : ν → κ → ν} {Holds : τ → ν → Prop}

/-- What every call keeps is kept by all of them. -/
theorem holds_of_foldlM
    (step : ∀ {p p' : τ} {v : ν} {k : κ}, Holds p v → apply p k = .ok p' → Holds p' (next v k))
    {ks : List κ} {p p' : τ} {v : ν} (h : Holds p v) (hrun : ks.foldlM apply p = .ok p') :
    Holds p' (ks.foldl next v) := by
  induction ks generalizing p v with
  | nil =>
    cases hrun
    exact h
  | cons k ks ih =>
    rw [List.foldlM_cons] at hrun
    obtain ⟨p₁, hk, hrun⟩ := exists_of_bind_eq_ok hrun
    exact ih (step h hk) hrun

theorem stays_of_foldlM {Stays : τ → Prop}
    (step : ∀ {p p' : τ} {k : κ}, Stays p → apply p k = .ok p' → Stays p') {ks : List κ} {p p' : τ}
    (h : Stays p) (hrun : ks.foldlM apply p = .ok p') : Stays p' :=
  @holds_of_foldlM κ τ Unit apply (fun u _ => u) (fun p _ => Stays p) step ks p p' () h hrun

end Steps

/-- A column whose default binds these values, and nothing else of it binds any. -/
structure ColumnDefinition.Binds (p : ColumnDefinition Node) (vs : List Value) : Prop where
  column : Slotted.ValueFree [(.only .column, p.column)]
  dataType : Slotted.ValueFree [(.any, p.dataType)]
  references : Slotted.ValueFree (p.references.toList.map (.only .references, ·))
  defaultTo : Slotted.Binds (p.defaultTo.toList.map (.only .defaultValue, ·)) vs
  check : Slotted.ValueFree (p.check.toList.map (.only .checkConstraint, ·))
  generated : Slotted.ValueFree (p.generated.toList.map (.only .generated, ·))

theorem ColumnDefinition.Binds.node {p : ColumnDefinition Node} {vs : List Value}
    (h : p.Binds vs) : p.node.Binds vs := by
  refine binds_columnDefinition ?_ ?_
  · have hparts := h.column.binds.append (h.dataType.binds.append (h.references.binds.append
      (h.defaultTo.append (h.check.binds.append h.generated.binds))))
    simpa [Shape.slotted, Shape.fields, ColumnDefinition.fields] using hparts
  · refine List.flatMap_eq_nil_iff.mpr fun c hc => ?_
    exact (h.generated (.only .generated, c) (List.mem_map_of_mem hc)).2.met

/-- The calls that define a column. -/
inductive ColumnCall where
  | primaryKey
  | autoIncrement
  | unique
  | nullsNotDistinct
  | notNull
  | unsigned
  | defaultTo (v : Given)
  | check (c : FreeNode)
  | references (target : String)
  | onDelete (action : String)
  | onUpdate (action : String)
  | generatedAs (e : FreeNode)
  | identityAlways
  | identityByDefault
  | stored

namespace ColumnCall

def apply (p : ColumnDefinition Node) : ColumnCall → Except Error (ColumnDefinition Node)
  | .primaryKey => .ok { p with primaryKey := true }
  | .autoIncrement => .ok { p with autoIncrement := true }
  | .unique => .ok { p with unique := true }
  | .nullsNotDistinct => .ok { p with nullsNotDistinct := true }
  | .notNull => .ok { p with notNull := true }
  | .unsigned => .ok { p with unsigned := true }
  | .defaultTo v => .ok (p.defaultingTo v.operand)
  | .check c => .ok (p.checked c.1)
  | .references target => p.referencing target
  | .onDelete action => p.onDelete action
  | .onUpdate action => p.onUpdate action
  | .generatedAs e => .ok (p.generatedAs e.1)
  | .identityAlways => .ok p.identityAlways
  | .identityByDefault => .ok p.identityByDefault
  | .stored => .ok p.stored

/-- The list that is the default after a call. -/
def next (vs : List Value) : ColumnCall → List Value
  | .defaultTo v => v.listed
  | _ => vs

/-- The list that is the default of a column in the end. -/
def listed (ks : List ColumnCall) : List Value := ks.foldl next []

end ColumnCall

theorem Read.valueFree_column {name : String} {n : Node} (h : column name = .ok n) :
    (Slot.only .column).admits n.kind = true ∧ n.ValueFree :=
  OfNames.valueFree_only (ofNames_column h)

theorem Read.valueFree_dataType {name : String} {n : Node} (h : dataType name = .ok n) :
    n.ValueFree := by
  obtain ⟨s, -, h⟩ := exists_of_bind_eq_ok h
  cases h
  exact ⟨rfl, rfl⟩

namespace ColumnDefinition

theorem binds_begin {name dataType : String} {p : ColumnDefinition Node}
    (h : begin name dataType = .ok p) : p.Binds [] := by
  obtain ⟨column, hcolumn, h⟩ := exists_of_bind_eq_ok h
  obtain ⟨type, htype, h⟩ := exists_of_bind_eq_ok h
  cases h
  exact ⟨Slotted.valueFree_singleton.mpr (Read.valueFree_column hcolumn),
    Slotted.valueFree_singleton.mpr ⟨rfl, Read.valueFree_dataType htype⟩,
    Slotted.valueFree_nil, .nil, Slotted.valueFree_nil, Slotted.valueFree_nil⟩

theorem exists_of_withReferences {p p' : ColumnDefinition Node}
    {f : References Node → References Node} (h : p.withReferences f = .ok p') :
    ∃ r, p.references = some ⟨.references r⟩ ∧
      p' = { p with references := some ⟨.references (f r)⟩ } := by
  unfold withReferences at h
  split at h
  · cases h
    exact ⟨_, ‹_›, rfl⟩
  · cases h

end ColumnDefinition

/-- Actions are words. -/
theorem References.valueFree_withActions {r r' : References Node} (h : ValueFree ⟨.references r⟩)
    (htable : r'.table = r.table) (hcolumns : r'.columns = r.columns) :
    ValueFree ⟨.references r'⟩ := by
  rw [valueFree_mk] at h ⊢
  simpa [Shape.bound, Shape.slotted, Shape.fields, References.fields, htable, hcolumns] using h

theorem Generated.valueFree_of_expression {g : Generated Node}
    (h : Slotted.ValueFree (g.expression.toList.map (.any, ·))) : ValueFree ⟨.generated g⟩ := by
  refine valueFree_mk.mpr ⟨rfl, ?_⟩
  simpa [Shape.slotted, Shape.fields, Generated.fields] using h

namespace ColumnDefinition

variable {p p' : ColumnDefinition Node} {vs : List Value}

theorem Binds.defaultingTo (h : p.Binds vs) (g : Given) :
    (p.defaultingTo g.operand).Binds g.listed :=
  { h with
    defaultTo := by
      have hg : Slotted.Binds [(.any, g.operand.inline)] g.listed := .single rfl g.binds_inline
      exact .single rfl (binds_mk (s := .defaultValue g.operand.inline) hg rfl rfl
        (not_isTest_of_kind rfl)) }

theorem Binds.checked (h : p.Binds vs) {c : Node} (hc : c.ValueFree) : (p.checked c).Binds vs :=
  { h with
    check := Slotted.valueFree_singleton.mpr ⟨rfl, valueFree_mk.mpr
      ⟨rfl, Slotted.valueFree_singleton.mpr ⟨rfl, hc⟩⟩⟩ }

theorem Binds.generatedBy (h : p.Binds vs) {g : Generated Node} (hg : ValueFree ⟨.generated g⟩) :
    (p.generatedBy g).Binds vs :=
  { h with generated := Slotted.valueFree_singleton.mpr ⟨rfl, hg⟩ }

theorem Binds.stored (h : p.Binds vs) : p.stored.Binds vs := by
  unfold ColumnDefinition.stored
  split
  · rename_i g hg
    have hfree : ValueFree ⟨.generated g⟩ :=
      (h.generated (.only .generated, ⟨.generated g⟩) (by simp [hg])).2
    refine h.generatedBy (Generated.valueFree_of_expression ?_)
    rw [valueFree_mk] at hfree
    simpa [Shape.slotted, Shape.fields, Generated.fields] using hfree.2
  · exact h.generatedBy (Generated.valueFree_of_expression Slotted.valueFree_nil)

theorem Binds.withReferences (h : p.Binds vs) {f : References Node → References Node}
    (hf : ∀ r, (f r).table = r.table ∧ (f r).columns = r.columns)
    (hp : p.withReferences f = .ok p') : p'.Binds vs := by
  obtain ⟨r, hr, rfl⟩ := exists_of_withReferences hp
  have hfree : ValueFree ⟨.references r⟩ :=
    (h.references (.only .references, ⟨.references r⟩) (by simp [hr])).2
  exact { h with
    references := Slotted.valueFree_singleton.mpr
      ⟨rfl, References.valueFree_withActions hfree (hf r).1 (hf r).2⟩ }

theorem Binds.referencing (h : p.Binds vs) {target : String}
    (hp : p.referencing target = .ok p') : p'.Binds vs := by
  obtain ⟨⟨t, c⟩, htarget, hp⟩ := exists_of_bind_eq_ok hp
  cases hp
  obtain ⟨ht, hc⟩ := Read.ofNames_foreignColumn htarget
  have hparts : Slotted.ValueFree [(.only .table, t), (.only .column, c)] :=
    List.forall_mem_cons.mpr ⟨OfNames.valueFree_only ht,
      Slotted.valueFree_singleton.mpr (OfNames.valueFree_only hc)⟩
  exact { h with
    references := Slotted.valueFree_singleton.mpr ⟨rfl, valueFree_mk.mpr ⟨rfl, hparts⟩⟩ }

end ColumnDefinition

namespace ColumnCall

theorem binds_of_apply {p p' : ColumnDefinition Node} {vs : List Value} {k : ColumnCall}
    (h : p.Binds vs) (hk : k.apply p = .ok p') : p'.Binds (next vs k) := by
  cases k with
  | references target => exact h.referencing hk
  | onDelete action =>
    obtain ⟨a, -, hk⟩ := exists_of_bind_eq_ok hk
    exact h.withReferences (f := (·.withDelete a)) (fun _ => ⟨rfl, rfl⟩) hk
  | onUpdate action =>
    obtain ⟨a, -, hk⟩ := exists_of_bind_eq_ok hk
    exact h.withReferences (f := (·.withUpdate a)) (fun _ => ⟨rfl, rfl⟩) hk
  | defaultTo v =>
    cases hk
    exact h.defaultingTo v
  | check c =>
    cases hk
    exact h.checked c.2
  | generatedAs e =>
    cases hk
    exact h.generatedBy (Generated.valueFree_of_expression
      (Slotted.valueFree_singleton.mpr ⟨rfl, e.2⟩))
  | identityAlways =>
    cases hk
    exact h.generatedBy (Generated.valueFree_of_expression Slotted.valueFree_nil)
  | identityByDefault =>
    cases hk
    exact h.generatedBy (Generated.valueFree_of_expression Slotted.valueFree_nil)
  | stored =>
    cases hk
    exact h.stored
  | _ =>
    cases hk
    exact { h with }

/-- A column binds the list that is its default in the end. -/
theorem binds_of_foldlM {name dataType : String} {p p' : ColumnDefinition Node}
    (hp : ColumnDefinition.begin name dataType = .ok p) {ks : List ColumnCall}
    (h : ks.foldlM apply p = .ok p') : p'.node.Binds (listed ks) :=
  (holds_of_foldlM binds_of_apply (ColumnDefinition.binds_begin hp) h).node

end ColumnCall

/-- The calls that say what becomes of a foreign key. -/
inductive KeyAction where
  | onDelete (action : String)
  | onUpdate (action : String)

def KeyAction.apply (k : ForeignKey) : KeyAction → Except Error ForeignKey
  | .onDelete action => k.onDelete action
  | .onUpdate action => k.onUpdate action

/-- The constraints that are added to tables. -/
inductive Constraint where
  | primaryKey (name : String) (columns : List String)
  | unique (name : String) (columns : List String)
  | check (name : String) (c : FreeNode)
  | foreignKey (name : String) (columns : List String) (table : String) (targets : List String)
    (actions : List KeyAction)

def Constraint.node : Constraint → Except Error Node
  | .primaryKey name columns => NamedConstraint.primaryKey name columns
  | .unique name columns => NamedConstraint.unique name columns
  | .check name c => NamedConstraint.check name c.1
  | .foreignKey name columns table targets actions => do
    let k ← ForeignKey.begin name columns table targets
    return (← actions.foldlM KeyAction.apply k).node

namespace Read

theorem valueFree_columns {names : List String} {ns : List Node}
    (h : names.mapM column = .ok ns) : Slotted.ValueFree (ns.map (.only .column, ·)) :=
  List.forall_mem_map.mpr (forall_mem_of_mapM_eq_ok valueFree_column h)

theorem valueFree_table {name : String} {n : Node} (h : table name = .ok n) :
    (Slot.only .table).admits n.kind = true ∧ n.ValueFree :=
  OfNames.valueFree_only (ofNames_table h)

theorem valueFree_identifier {name : String} {n : Node} (h : identifier name = .ok n) :
    (Slot.only .identifier).admits n.kind = true ∧ n.ValueFree :=
  OfNames.valueFree_only (ofNames_identifier h)

theorem valueFree_key {names : List String} {name : String} {ns : List Node} {n : Node}
    (hns : names.mapM column = .ok ns) (hn : identifier name = .ok n) :
    Slotted.ValueFree (ns.map (.only .column, ·) ++ [(.only .identifier, n)]) :=
  Slotted.valueFree_append.mpr
    ⟨valueFree_columns hns, Slotted.valueFree_singleton.mpr (valueFree_identifier hn)⟩

end Read

/-- A foreign key without a value that is bound. -/
structure ForeignKey.ValueFree (k : ForeignKey) : Prop where
  columns : Slotted.ValueFree (k.columns.map (.only .column, ·))
  target : Node.ValueFree ⟨.references k.target⟩
  name : (Slot.only .identifier).admits k.name.kind = true ∧ k.name.ValueFree

namespace ForeignKey

theorem ValueFree.node {k : ForeignKey} (h : k.ValueFree) : k.node.ValueFree := by
  refine valueFree_mk.mpr ⟨rfl, ?_⟩
  have hrest : Slotted.ValueFree
      [(.only .references, ⟨.references k.target⟩), (.only .identifier, k.name)] :=
    List.forall_mem_cons.mpr ⟨⟨rfl, h.target⟩, Slotted.valueFree_singleton.mpr h.name⟩
  simpa [Shape.slotted, Shape.fields] using Slotted.valueFree_append.mpr ⟨h.columns, hrest⟩

theorem valueFree_begin {name table : String} {columns targets : List String} {k : ForeignKey}
    (h : begin name columns table targets = .ok k) : k.ValueFree := by
  obtain ⟨cs, hcs, h⟩ := exists_of_bind_eq_ok h
  obtain ⟨t, ht, h⟩ := exists_of_bind_eq_ok h
  obtain ⟨ts, hts, h⟩ := exists_of_bind_eq_ok h
  obtain ⟨n, hn, h⟩ := exists_of_bind_eq_ok h
  cases h
  refine ⟨Read.valueFree_columns hcs, valueFree_mk.mpr ⟨rfl, ?_⟩, Read.valueFree_identifier hn⟩
  have htarget := Slotted.valueFree_append.mpr
    ⟨Slotted.valueFree_singleton.mpr (Read.valueFree_table ht), Read.valueFree_columns hts⟩
  simpa [Shape.slotted, Shape.fields, References.fields] using htarget

end ForeignKey

theorem KeyAction.valueFree_of_apply {k k' : ForeignKey} {a : KeyAction} (h : k.ValueFree)
    (ha : a.apply k = .ok k') : k'.ValueFree := by
  cases a with
  | onDelete action =>
    obtain ⟨action, -, ha⟩ := exists_of_bind_eq_ok ha
    cases ha
    exact { h with target := References.valueFree_withActions h.target rfl rfl }
  | onUpdate action =>
    obtain ⟨action, -, ha⟩ := exists_of_bind_eq_ok ha
    cases ha
    exact { h with target := References.valueFree_withActions h.target rfl rfl }

/-- A constraint binds nothing. -/
theorem Constraint.valueFree_node {k : Constraint} {n : Node} (h : k.node = .ok n) :
    n.ValueFree := by
  cases k with
  | primaryKey name columns =>
    obtain ⟨cs, hcs, h⟩ := exists_of_bind_eq_ok h
    obtain ⟨i, hi, h⟩ := exists_of_bind_eq_ok h
    cases h
    refine valueFree_mk.mpr ⟨rfl, ?_⟩
    simpa [Shape.slotted, Shape.fields] using Read.valueFree_key hcs hi
  | unique name columns =>
    obtain ⟨cs, hcs, h⟩ := exists_of_bind_eq_ok h
    obtain ⟨i, hi, h⟩ := exists_of_bind_eq_ok h
    cases h
    refine valueFree_mk.mpr ⟨rfl, ?_⟩
    simpa [Shape.slotted, Shape.fields] using Read.valueFree_key hcs hi
  | check name c =>
    obtain ⟨i, hi, h⟩ := exists_of_bind_eq_ok h
    cases h
    exact valueFree_mk.mpr ⟨rfl, List.forall_mem_cons.mpr
      ⟨⟨rfl, c.2⟩, Slotted.valueFree_singleton.mpr (Read.valueFree_identifier hi)⟩⟩
  | foreignKey name columns table targets actions =>
    obtain ⟨k, hk, h⟩ := exists_of_bind_eq_ok h
    obtain ⟨k', hactions, h⟩ := exists_of_bind_eq_ok h
    cases h
    have hbegin := ForeignKey.valueFree_begin hk
    exact (stays_of_foldlM KeyAction.valueFree_of_apply hbegin hactions).node

end SqlTree
