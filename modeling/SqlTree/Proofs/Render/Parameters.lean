import SqlTree.Proofs.Render.Effective
import SqlTree.Proofs.Render.Refusal

/-!
# Parameters of layouts

Most layouts bind what their effective parts bind, in the order of these
(`Piece.parameters_pieces`); names, which constraints write first, bind nothing.  A select moves its
modifiers, an update its joins and a column definition its expression.
-/

namespace SqlTree

/-- The values that a shape binds itself. -/
def Shape.bound {α : Type} : Shape α → List Value
  | .value v false => [v]
  | .valueList (.primitive vs) => vs
  | _ => []

theorem Shape.bound_map {α β : Type} (f : α → β) (s : Shape α) : (s.map f).bound = s.bound := by
  rw [Shape.map_eq_each]
  cases s with
  | value v immediate => cases immediate <;> rfl
  | valueList items => cases items <;> rfl
  | _ => rfl

theorem Shape.bound_effective {α : Type} (s : Shape α) : s.effective.bound = s.bound := by
  cases s with
  | selectModifier m fragment tables => cases m <;> rfl
  | _ => rfl

/-- Shapes whose children are written in the order in which they are walked over. -/
def Shape.steady {α : Type} : Shape α → Bool
  | .selectQuery _ => false
  | .updateQuery _ => false
  | .columnDefinition _ => false
  | _ => true

theorem Shape.steady_map {α β : Type} (f : α → β) (s : Shape α) :
    (s.map f).steady = s.steady := by
  rw [Shape.map_eq_each]
  cases s <;> rfl

namespace Layout

/-- The values that parts bind. -/
def bound (ps : List Part) : List Value := ps.flatMap fun p => Piece.parameters p.2

@[simp] theorem bound_nil : bound [] = [] := rfl

@[simp] theorem bound_cons (p : Part) (ps : List Part) :
    bound (p :: ps) = Piece.parameters p.2 ++ bound ps := rfl

@[simp] theorem bound_append (ps qs : List Part) : bound (ps ++ qs) = bound ps ++ bound qs :=
  List.flatMap_append

end Layout

namespace Piece

open Layout

@[simp] theorem parameters_nil : parameters [] = [] := rfl

@[simp] theorem parameters_text (s : String) (ps : List Piece) :
    parameters (.text s :: ps) = parameters ps := rfl

@[simp] theorem parameters_verbatim (s : String) (ps : List Piece) :
    parameters (.verbatim s :: ps) = parameters ps := rfl

@[simp] theorem parameters_name (s : String) (ps : List Piece) :
    parameters (.name s :: ps) = parameters ps := rfl

@[simp] theorem parameters_refused (f : Feature) (ps : List Piece) :
    parameters (.refused f :: ps) = parameters ps := rfl

@[simp] theorem parameters_sql (s : String) : parameters (Layout.sql s) = [] := rfl

@[simp] theorem parameters_sqlIf (b : Bool) (s : String) : parameters (sqlIf b s) = [] := by
  cases b <;> rfl

@[simp] theorem parameters_separated (s : String) (ps : List Part) :
    parameters (separated s ps) = Layout.bound ps := by
  induction ps with
  | nil => rfl
  | cons p ps ih =>
    cases ps with
    | nil => exact (List.append_nil _).symm
    | cons q qs =>
      show parameters (p.2 ++ .text s :: separated s (q :: qs)) = _
      rw [parameters_append, parameters_text, ih]
      rfl

@[simp] theorem parameters_commas (ps : List Part) : parameters (commas ps) = Layout.bound ps :=
  parameters_separated ", " ps

@[simp] theorem parameters_listed (ps : List Part) :
    parameters (listed ps) = Layout.bound ps := by
  simp [listed]

@[simp] theorem parameters_after (s : String) (p : Option Part) :
    parameters (after s p) = Layout.bound p.toList := by
  cases p with
  | none => rfl
  | some p => exact (List.append_nil _).symm

@[simp] theorem parameters_clause (p : Option Part) :
    parameters (clause p) = Layout.bound p.toList := parameters_after " " p

@[simp] theorem parameters_clauses (ps : List Part) :
    parameters (clauses ps) = Layout.bound ps := by
  induction ps with
  | nil => rfl
  | cons p ps ih =>
    have hcons : clauses (p :: ps) = .text " " :: p.2 ++ clauses ps := rfl
    rw [hcons, parameters_append, parameters_text, ih, bound_cons]

@[simp] theorem parameters_leading (p : Option Part) :
    parameters (leading p) = Layout.bound p.toList := by
  cases p with
  | none => rfl
  | some p => simp [leading]

@[simp] theorem parameters_constraintName (p : Option Part) :
    parameters (constraintName p) = Layout.bound p.toList := by
  cases p with
  | none => rfl
  | some p => simp [constraintName]

@[simp] theorem parameters_fragments (ss : List String) (ps : List Part) :
    parameters (fragments ss ps) = Layout.bound (ps.take ss.length) := by
  induction ss generalizing ps with
  | nil => rfl
  | cons s ss ih =>
    cases ps with
    | nil => simp [fragments, ih]
    | cons p ps => simp [fragments, ih]

@[simp] theorem parameters_parameters (vs : List Value) :
    parameters (Layout.parameters vs) = vs := by
  induction vs with
  | nil => rfl
  | cons v vs ih =>
    cases vs with
    | nil => rfl
    | cons w ws => exact congrArg (v :: ·) ih

@[simp] theorem parameters_enclosed (k : Kind) (parent : Option Kind) (ps : List Piece) :
    parameters (enclosed k parent ps) = parameters ps := by
  unfold enclosed
  split <;> simp

@[simp] theorem parameters_insertVerb (d : Dialect) (b c : Bool) :
    parameters (insertVerb d b c) = [] := by
  cases d <;> cases b <;> cases c <;> rfl

@[simp] theorem parameters_ite {p : Prop} [Decidable p] (ps qs : List Piece) :
    parameters (if p then ps else qs) = if p then parameters ps else parameters qs := by
  split <;> rfl

/-- Lists that are left out when they are empty. -/
@[simp] theorem bound_unlessNil (ps : List Part) :
    (if ps = [] then [] else Layout.bound ps) = Layout.bound ps := by
  cases ps <;> rfl

@[simp] theorem parameters_aggregate (p : Aggregate Part) :
    parameters (aggregate p) = Layout.bound p.arguments ++ Layout.bound p.orderBy.toList ++
      Layout.bound p.filter.toList ++ Layout.bound p.window.toList := by
  obtain ⟨name, arguments, distinct, orderBy, filter, window⟩ := p
  cases filter <;> cases window <;> simp [aggregate]

@[simp] theorem parameters_onConflict (p : OnConflict Part) :
    parameters (onConflict p) = Layout.bound p.effective.columns ++
      Layout.bound p.effective.constraint.toList ++
        Layout.bound p.effective.indexExpression.toList ++
          Layout.bound p.effective.indexWhere.toList ++ Layout.bound p.effective.updates ++
            Layout.bound p.effective.updateWhere.toList := by
  obtain ⟨columns, constraint, indexExpression, indexWhere, updates, updateWhere, doNothing⟩ := p
  have hupdates : ∀ ps, parameters (ps ++
      if doNothing then Layout.sql " do nothing"
        else if updates.isEmpty then []
        else Layout.sql " do update set " ++ commas updates ++ clause updateWhere) =
        parameters ps ++ Layout.bound (if doNothing then [] else updates) ++
          Layout.bound (if doNothing || updates.isEmpty then none else updateWhere).toList := by
    intro ps
    cases doNothing with
    | true => simp
    | false => cases updates <;> simp
  refine (hupdates _).trans ?_
  cases columns with
  | cons a as => simp [OnConflict.effective]
  | nil => cases constraint <;> cases indexExpression <;> simp [OnConflict.effective]

@[simp] theorem parameters_references (p : References Part) :
    parameters (references p) = parameters p.table.2 ++ Layout.bound p.columns := by
  obtain ⟨table, columns, onDelete, onUpdate⟩ := p
  cases onDelete <;> cases onUpdate <;> simp [references]

@[simp] theorem parameters_createTable (p : CreateTable Part) :
    parameters (createTable p) =
      parameters p.table.2 ++ Layout.bound p.columns ++ Layout.bound p.constraints := by
  obtain ⟨table, columns, constraints, temporary, ifNotExists, onCommit⟩ := p
  cases onCommit <;> simp [createTable]

@[simp] theorem parameters_createIndex (p : CreateIndex Part) :
    parameters (createIndex p) = parameters p.name.2 ++ Layout.bound p.table.toList ++
      Layout.bound p.columns ++ Layout.bound p.whereClause.toList := by
  obtain ⟨name, table, columns, unique, ifNotExists, method, whereClause, distinct⟩ := p
  cases method <;> simp [createIndex]

@[simp] theorem parameters_generated (p : Generated Part) :
    parameters (generated p) = Layout.bound p.effective.expression.toList := by
  obtain ⟨byDefault, always, identity, stored, expression⟩ := p
  cases expression <;> cases identity <;> simp [generated, Generated.effective]

@[simp] theorem parameters_alterColumn (p : AlterColumn Part) :
    parameters (alterColumn p) = parameters p.effective.column.2 ++
      Layout.bound p.effective.dataType.toList ++ Layout.bound p.effective.setDefault.toList := by
  obtain ⟨column, dataType, setDefault, dropDefault, setNotNull, dropNotNull⟩ := p
  cases dataType <;> cases setDefault <;> simp [alterColumn, AlterColumn.effective]

theorem parameters_delete (p : Delete Part)
    (hfrom : hasNoItems p.fromClause.1 = true → parameters p.fromClause.2 = []) :
    parameters (delete p) = Layout.bound (Shape.deleteQuery p).children := by
  have hclause : parameters
      (if hasNoItems p.fromClause.1 then [] else Layout.sql " " ++ p.fromClause.2) =
        parameters p.fromClause.2 := by
    split
    · exact (hfrom ‹_›).symm
    · rfl
  simp [delete, hclause, ← Shape.map_snd_slotted, Shape.slotted, Shape.fields, Delete.fields]

theorem parameters_merge (p : Merge Part)
    (hjoin : ∀ j, p.usingJoin = some j → parameters j.2.tail = parameters j.2) :
    parameters (merge p) = Layout.bound (Shape.mergeQuery p).children := by
  obtain ⟨into, usingJoin, branches, withClause⟩ := p
  cases usingJoin with
  | none => simp [merge, ← Shape.map_snd_slotted, Shape.slotted, Shape.fields, Merge.fields]
  | some j =>
    simp [merge, hjoin j rfl, ← Shape.map_snd_slotted, Shape.slotted, Shape.fields, Merge.fields]

/-- A layout binds what its node binds, and then what its effective parts bind in their order. -/
theorem parameters_pieces (d : Dialect) (parent : Option Kind) {s : Shape Part}
    (hs : s.steady = true)
    (hname : ∀ a, (Slot.only .identifier, a) ∈ s.slotted → parameters a.2 = [])
    (hjoin : ∀ j, (Slot.only .join, j) ∈ s.slotted → parameters j.2.tail = parameters j.2)
    (hfrom : ∀ a ∈ s.children, hasNoItems a.1 = true → parameters a.2 = []) :
    parameters (pieces d parent s) = s.bound ++ Layout.bound s.effective.children := by
  have hunnamed : ∀ name : Option Part, (∀ a, name = some a →
      (Slot.only .identifier, a) ∈ s.slotted) → Layout.bound name.toList = [] := by
    intro name h
    cases name with
    | none => rfl
    | some a => simpa using hname a (h a rfl)
  cases s with
  | value v immediate => cases immediate <;> rfl
  | valueList items =>
    cases items <;> simp [pieces, Shape.bound, Shape.effective, Shape.children, Shape.fields,
      Field.toList]
  | mergeQuery p =>
    rw [pieces, parameters_enclosed]
    exact parameters_merge p fun j hj => hjoin j (Shape.mem_slotted_of_usingJoin hj)
  | deleteQuery p =>
    rw [pieces, parameters_enclosed]
    refine parameters_delete p (hfrom p.fromClause ?_)
    simp [Shape.children, Shape.fields, Delete.fields, Field.toList]
  | schemableIdentifier schema name =>
    cases schema <;> simp [pieces, Shape.bound, Shape.effective, Shape.children, Shape.fields,
      Field.toList]
  | reference table column =>
    cases table <;> simp [pieces, Shape.bound, Shape.effective, Shape.children, Shape.fields,
      Field.toList]
  | window partition order =>
    cases partition <;> simp [pieces, Shape.bound, Shape.effective, Shape.children, Shape.fields,
      Field.toList]
  | orderByItem a direction nulls =>
    cases direction <;> cases nulls <;> simp [pieces, Shape.bound, Shape.effective,
      ← Shape.map_snd_slotted, Shape.slotted, Shape.fields]
  | top a modifier =>
    cases modifier <;> simp [pieces, Shape.bound, Shape.effective, ← Shape.map_snd_slotted,
      Shape.slotted, Shape.fields]
  | commonTableExpression name materialized e =>
    rcases materialized with _ | _ | _ <;> simp [pieces, Shape.bound, Shape.effective,
      ← Shape.map_snd_slotted, Shape.slotted, Shape.fields]
  | selectModifier modifier fragment tables =>
    cases modifier <;> cases fragment <;> simp [pieces, Shape.bound, Shape.effective,
      ← Shape.map_snd_slotted, Shape.slotted, Shape.fields]
  | selectQuery p => cases hs
  | updateQuery p => cases hs
  | columnDefinition p => cases hs
  | primaryKeyConstraint columns name =>
    have hname := hunnamed name fun a ha => by simp [Shape.slotted, Shape.fields, ha]
    simp [pieces, hname, Shape.bound, Shape.effective, Shape.children, Shape.fields, Field.toList]
  | uniqueConstraint columns name nullsNotDistinct =>
    have hname := hunnamed name fun a ha => by simp [Shape.slotted, Shape.fields, ha]
    simp [pieces, hname, Shape.bound, Shape.effective, ← Shape.map_snd_slotted, Shape.slotted,
      Shape.fields]
  | checkConstraint e name =>
    have hname := hunnamed name fun a ha => by simp [Shape.slotted, Shape.fields, ha]
    simp [pieces, hname, Shape.bound, Shape.effective, Shape.children, Shape.fields, Field.toList]
  | foreignKeyConstraint columns target name =>
    have hname := hunnamed name fun a ha => by simp [Shape.slotted, Shape.fields, ha]
    simp [pieces, hname, Shape.bound, Shape.effective, Shape.children, Shape.fields, Field.toList]
  | _ =>
    simp [pieces, Shape.bound, Shape.effective, ← Shape.map_snd_slotted, Shape.slotted,
      Shape.fields, Aggregate.fields, Layout.insert, Insert.fields, CreateTable.fields,
      References.fields, CreateIndex.fields, createView, CreateView.fields, alterTable,
      AlterTable.fields, OnConflict.fields, Generated.fields, AlterColumn.fields]

end Piece

end SqlTree
