import SqlTree.Proofs.Tree.Rewriting
import Mathlib.Data.List.Forall2

/-!
# What a statement shows of a tree

Some nodes hold parts that others of their parts take the place of: a conflict clause that does
nothing shows no updates, a change of a column only the first one it holds.  The effective part of a
tree is what is left without them.
-/

namespace SqlTree

variable {α β : Type}

/-- One target of the conflict, and updates only if it does something. -/
def OnConflict.effective (p : OnConflict α) : OnConflict α :=
  { p with
    constraint := if p.columns.isEmpty then p.constraint else none
    indexExpression :=
      if p.columns.isEmpty && p.constraint.isNone then p.indexExpression else none
    updates := if p.doNothing then [] else p.updates
    updateWhere := if p.doNothing || p.updates.isEmpty then none else p.updateWhere }

/-- No expression for an identity. -/
def Generated.effective (p : Generated α) : Generated α :=
  { p with expression := if p.identity then none else p.expression }

/-- No default beside a new type. -/
def AlterColumn.effective (p : AlterColumn α) : AlterColumn α :=
  { p with setDefault := if p.dataType.isSome then none else p.setDefault }

/-- The parts of a node that its statement shows. -/
def Shape.effective : Shape α → Shape α
  | .raw ss as => .raw ss (as.take ss.length)
  | .onConflict p => .onConflict p.effective
  | .generated p => .generated p.effective
  | .alterColumn p => .alterColumn p.effective
  | .selectModifier (some m) _ tables => .selectModifier (some m) none tables
  | s => s

namespace Shape

theorem effective_map (f : α → β) (s : Shape α) : (s.map f).effective = s.effective.map f := by
  rw [map_eq_each, map_eq_each]
  cases s with
  | raw ss as => simp [each, effective]
  | onConflict p =>
    simp only [each, effective, OnConflict.each, OnConflict.effective, List.isEmpty_map,
      Option.isNone_map]
    congr 2
    all_goals split <;> rfl
  | generated p =>
    simp only [each, effective, Generated.each, Generated.effective]
    congr 2
    split <;> rfl
  | alterColumn p =>
    simp only [each, effective, AlterColumn.each, AlterColumn.effective, Option.isSome_map]
    congr 2
    split <;> rfl
  | selectModifier m fragment tables => cases m <;> rfl
  | _ => rfl

/-- Shapes are compared field by field. -/
theorem slotted_sublist {s t : Shape α}
    (h : List.Forall₂ (fun x y => x.2.slotted.Sublist y.2.slotted) s.fields t.fields) :
    s.slotted.Sublist t.slotted := by
  unfold slotted
  generalize s.fields = fs at h ⊢
  generalize t.fields = gs at h ⊢
  induction h with
  | nil => exact .slnil
  | cons hxy _ ih => exact hxy.append ih

theorem slotted_effective_sublist (s : Shape α) : s.effective.slotted.Sublist s.slotted := by
  have hif : ∀ (b : Prop) [Decidable b] (slot : Slot) (o : Option α),
      (Field.optional slot (if b then none else o)).slotted.Sublist
        (Field.optional slot o).slotted := by
    intro b _ slot o
    split
    · exact List.nil_sublist _
    · exact .refl _
  have hunless : ∀ (b : Prop) [Decidable b] (slot : Slot) (o : Option α),
      (Field.optional slot (if b then o else none)).slotted.Sublist
        (Field.optional slot o).slotted := by
    intro b _ slot o
    split
    · exact .refl _
    · exact List.nil_sublist _
  cases s with
  | raw ss as =>
    refine slotted_sublist (.cons (.refl _) (.cons ?_ .nil))
    exact (List.take_sublist _ _).map _
  | onConflict p =>
    have hupdates : (Field.children (.only .columnUpdate)
        (if p.doNothing then [] else p.updates)).slotted.Sublist
          (Field.children (.only .columnUpdate) p.updates).slotted := by
      split
      · exact List.nil_sublist _
      · exact .refl _
    exact slotted_sublist (.cons (.refl _) (.cons (hunless _ _ _) (.cons (hunless _ _ _)
      (.cons (.refl _) (.cons hupdates (.cons (hif _ _ _) (.cons (.refl _) .nil)))))))
  | generated p =>
    exact slotted_sublist (.cons (.refl _) (.cons (.refl _) (.cons (.refl _) (.cons (.refl _)
      (.cons (hif _ _ _) .nil)))))
  | alterColumn p =>
    exact slotted_sublist (.cons (.refl _) (.cons (.refl _) (.cons (hif _ _ _) (.cons (.refl _)
      (.cons (.refl _) (.cons (.refl _) .nil))))))
  | selectModifier m fragment tables =>
    cases m with
    | none => exact .refl _
    | some m =>
      exact slotted_sublist (.cons (.refl _) (.cons (List.nil_sublist _) (.cons (.refl _) .nil)))
  | _ => exact .refl _

theorem children_effective_sublist (s : Shape α) : s.effective.children.Sublist s.children := by
  rw [← map_snd_slotted, ← map_snd_slotted]
  exact s.slotted_effective_sublist.map _

end Shape

namespace Node

/-- The tree without the parts that its statement does not show. -/
def effective : Node → Node := rewrite fun n => ⟨n.shape.effective⟩

theorem effective_mk (s : Shape Node) : effective ⟨s⟩ = ⟨s.effective.map effective⟩ := by
  rw [effective, rewrite_mk, shape, Shape.effective_map]

theorem mem_children_of_mem_effective {s : Shape Node} {c : Node} (h : c ∈ s.effective.children) :
    c ∈ s.children := s.children_effective_sublist.subset h

end Node

end SqlTree
