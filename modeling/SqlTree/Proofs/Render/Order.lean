import SqlTree.Proofs.Render.BoundValues
import SqlTree.Proofs.Render.Parameters
import SqlTree.Proofs.Tree.Every
import SqlTree.Proofs.Tree.Walking
import SqlTree.Build.Start
import Mathlib.Data.List.Flatten

/-!
# Walks in the order of writing

The walk over a tree meets bound values, and its statement binds them.  Without the parts that the
statement does not show, the walk meets them in the order of the parameters, wherever a layout keeps
the order of its children or what it moves binds nothing (`Node.compile_met`).
-/

namespace SqlTree

namespace Piece

open Layout

theorem bound_byPriority {ps : List Part}
    (h : ∀ p ∈ ps, modifierPriority p.1 = 3 ∨ parameters p.2 = []) :
    Layout.bound (byPriority ps) = Layout.bound ps := by
  have hclass : ∀ k, k ≠ 3 →
      Layout.bound (ps.filter fun p => modifierPriority p.1 == k) = [] := by
    intro k hk
    refine List.flatMap_eq_nil_iff.mpr fun p hp => ?_
    obtain ⟨hp, hpk⟩ := List.mem_filter.mp hp
    exact (h p hp).resolve_left fun h3 => hk ((eq_of_beq hpk).symm.trans h3)
  have hlast : Layout.bound (ps.filter fun p => modifierPriority p.1 == 3) = Layout.bound ps := by
    clear hclass
    induction ps with
    | nil => rfl
    | cons p ps ih =>
      have ih := ih fun q hq => h q (List.mem_cons_of_mem p hq)
      by_cases hp : modifierPriority p.1 = 3
      · simp [hp, ih]
      · simp [hp, ih, (h p List.mem_cons_self).resolve_left hp]
  simp [byPriority, hclass, hlast]

/-- Of modifiers only those that are written last may bind, and nothing both in front and in
`distinct on`. -/
theorem parameters_select {p : Select Part}
    (hdistinct : Layout.bound p.frontModifiers = [] ∨ Layout.bound p.distinctOn = [])
    (hfront : ∀ m ∈ p.frontModifiers, modifierPriority m.1 = 3 ∨ parameters m.2 = [])
    (hend : ∀ m ∈ p.endModifiers, modifierPriority m.1 = 3 ∨ parameters m.2 = []) :
    parameters (select p) = Layout.bound (Shape.selectQuery p).children := by
  have hmodifiers : ∀ ms : List Part, (∀ m ∈ ms, modifierPriority m.1 = 3 ∨ parameters m.2 = []) →
      parameters (modifiers ms) = Layout.bound ms := fun ms h => by
    rw [modifiers, parameters_clauses, bound_byPriority h]
  obtain h | h := hdistinct <;>
    simp [select, hmodifiers _ hfront, hmodifiers _ hend, h, Shape.children, Shape.fields,
      Select.fields, Field.toList]

/-- With a from clause, joins come after the assignments and the clause. -/
theorem parameters_update {p : Update Part}
    (h : p.fromClause = none ∨ Layout.bound p.joins = [] ∨
      Layout.bound p.updates = [] ∧ Layout.bound p.fromClause.toList = []) :
    parameters (update p) = Layout.bound (Shape.updateQuery p).children := by
  obtain ⟨table, fromClause, joins, whereClause, updates, returning, withClause, limit, explain⟩ :=
    p
  cases fromClause with
  | none => simp [update, Shape.children, Shape.fields, Update.fields, Field.toList]
  | some a =>
    obtain h | h | ⟨hupdates, ha⟩ := h
    · cases h
    · simp [update, Shape.children, Shape.fields, Update.fields, Field.toList, h]
    · have ha : parameters a.2 = [] := by simpa using ha
      simp [update, Shape.children, Shape.fields, Update.fields, Field.toList, hupdates, ha]

/-- The expression of a column comes before its default and its check. -/
theorem parameters_columnDefinition (d : Dialect) {p : ColumnDefinition Part}
    (hreferences : Layout.bound p.references.toList = [])
    (h : Layout.bound p.generated.toList = [] ∨
      Layout.bound p.defaultTo.toList = [] ∧ Layout.bound p.check.toList = []) :
    parameters (columnDefinition d p) = Layout.bound (Shape.columnDefinition p).children := by
  have hfields : Layout.bound (Shape.columnDefinition p).children =
      parameters p.column.2 ++ (parameters p.dataType.2 ++ (Layout.bound p.defaultTo.toList ++
        (Layout.bound p.check.toList ++ Layout.bound p.generated.toList))) := by
    simp [← Shape.map_snd_slotted, Shape.slotted, Shape.fields, ColumnDefinition.fields,
      hreferences]
  rw [hfields]
  obtain h | ⟨hdefault, hcheck⟩ := h
  · simp [columnDefinition, h, hreferences]
  · simp [columnDefinition, hdefault, hcheck, hreferences]

end Piece

namespace Node

/-- The bound values that the walk over a tree meets. -/
def met (n : Node) : List Value := n.visit.flatMap fun x => x.1.boundHere

theorem boundHere_mk (s : Shape Node) : boundHere ⟨s⟩ = s.bound := by
  cases s with
  | value v immediate => cases immediate <;> rfl
  | valueList items => cases items <;> rfl
  | _ => rfl

theorem flatMap_visitBelow (n : Node) (ancestors : List Node) :
    ((n.visitBelow ancestors).flatMap fun x => x.1.boundHere) = n.met := by
  induction n using childrenInduction generalizing ancestors with
  | h s ih =>
    rw [met, visit_eq_visitBelow, visitBelow_mk, visitBelow_mk, List.flatMap_cons,
      List.flatMap_cons, List.flatMap_assoc, List.flatMap_assoc]
    congr 1
    exact List.flatMap_congr fun c hc => (ih c hc _).trans (ih c hc _).symm

theorem met_mk (s : Shape Node) : met ⟨s⟩ = s.bound ++ s.children.flatMap met := by
  rw [met, visit_eq_visitBelow, visitBelow_mk, List.flatMap_cons, boundHere_mk,
    List.flatMap_assoc]
  congr 1
  exact List.flatMap_congr fun c _ => flatMap_visitBelow c _

theorem met_effective_mk (s : Shape Node) :
    met (effective ⟨s⟩) = s.bound ++ s.effective.children.flatMap fun c => c.effective.met := by
  rw [effective_mk, met_mk, Shape.bound_map, Shape.bound_effective, Shape.children_map,
    List.flatMap_map]

/-- What a statement does not show is left out of the walk, and nothing else. -/
theorem met_effective_sublist (n : Node) : n.effective.met.Sublist n.met := by
  induction n using childrenInduction with
  | h s ih =>
    rw [met_effective_mk, met_mk]
    refine .append_left (.trans ?_ (s.children_effective_sublist.flatMap met)) _
    exact .flatMap_right _ fun c hc => ih c (mem_children_of_mem_effective hc)

/-- Kinds that name something. -/
def names : Kind → Bool
  | .identifier => true
  | .schemableIdentifier => true
  | .table => true
  | .column => true
  | .references => true
  | _ => false

/-- Names bind nothing. -/
theorem met_of_names {n : Node} (h : n.wellFormed = true) (hk : names n.kind = true) :
    n.met = [] := by
  induction n using childrenInduction with
  | h s ih =>
    have hslots : s.bound = [] ∧ ∀ x ∈ s.slotted, ∃ k, x.1 = .only k ∧ names k = true := by
      cases s with
      | identifier name => simp [Shape.bound, Shape.slotted, Shape.fields]
      | schemableIdentifier schema name =>
        cases schema <;> simp [Shape.bound, Shape.slotted, Shape.fields, names]
      | table name => simp [Shape.bound, Shape.slotted, Shape.fields, names]
      | column name => simp [Shape.bound, Shape.slotted, Shape.fields, names]
      | references p =>
        simp [Shape.bound, Shape.slotted, Shape.fields, References.fields, names]
      | _ => cases hk
    rw [met_mk, hslots.1, List.nil_append, List.flatMap_eq_nil_iff]
    intro c hc
    rw [← Shape.map_snd_slotted, List.mem_map] at hc
    obtain ⟨⟨slot, c⟩, hx, rfl⟩ := hc
    obtain ⟨k, rfl, hk⟩ := hslots.2 _ hx
    obtain ⟨hkind, hc⟩ := wellFormed_mk_iff.mp h _ hx
    exact ih c (Shape.mem_children_of_mem_slotted hx) hc (eq_of_beq hkind ▸ hk)

end Node

/-- Whether the walks over nodes meet no value that is bound. -/
def Unbound (ns : List Node) : Prop := ns.flatMap Node.met = []

instance (ns : List Node) : Decidable (Unbound ns) := inferInstanceAs (Decidable (_ = []))

/-- Whether a node that moves its children moves nothing past a bound value. -/
def Shape.InOrder : Shape Node → Prop
  | .selectQuery p => (Unbound p.frontModifiers ∨ Unbound p.distinctOn) ∧
      ∀ m ∈ p.frontModifiers ++ p.endModifiers, Layout.modifierPriority m = 3 ∨ m.met = []
  | .updateQuery p =>
    p.fromClause = none ∨ Unbound p.joins ∨ Unbound p.updates ∧ Unbound p.fromClause.toList
  | .columnDefinition p =>
    Unbound p.generated.toList ∨ Unbound p.defaultTo.toList ∧ Unbound p.check.toList
  | _ => True

instance : DecidablePred Shape.InOrder := fun s => by
  cases s with
  | selectQuery p => exact inferInstanceAs (Decidable (_ ∧ _))
  | updateQuery p => exact inferInstanceAs (Decidable (_ ∨ _))
  | columnDefinition p => exact inferInstanceAs (Decidable (_ ∨ _))
  | _ => exact instDecidableTrue

namespace Node

theorem modifierPriority_effective (n : Node) :
    Layout.modifierPriority n.effective = Layout.modifierPriority n := by
  obtain ⟨s⟩ := n
  rw [effective_mk, Shape.map_eq_each]
  cases s with
  | selectModifier m fragment tables => cases m <;> rfl
  | _ => rfl

theorem parameters_of_identifier {d : Dialect} {n : Node} (h : n.kind = .identifier)
    (parent : Option Kind) : Piece.parameters (n.piecesIn d parent) = [] := by
  obtain ⟨s⟩ := n
  cases s with
  | identifier name => rfl
  | _ => cases h

/-- A from clause without tables binds nothing. -/
theorem parameters_of_hasNoItems {d : Dialect} {n : Node} (h : Layout.hasNoItems n = true)
    (parent : Option Kind) : Piece.parameters (n.piecesIn d parent) = [] := by
  unfold Layout.hasNoItems at h
  split at h
  · rfl
  · cases h

section Moving

variable {F : Node → Layout.Part}

theorem bound_map_effective {as : List Node}
    (hF : ∀ c ∈ as, Piece.parameters (F c).2 = c.effective.met) :
    Layout.bound (as.map F) = (as.map effective).flatMap met := by
  rw [Layout.bound, List.flatMap_map, List.flatMap_map]
  exact List.flatMap_congr hF

theorem bound_of_unbound {as : List Node}
    (hF : ∀ c ∈ as, Piece.parameters (F c).2 = c.effective.met)
    (h : Unbound (as.map effective)) : Layout.bound (as.map F) = [] :=
  (bound_map_effective hF).trans h

theorem bound_toList_of_unbound {o : Option Node}
    (hF : ∀ c ∈ o.toList, Piece.parameters (F c).2 = c.effective.met)
    (h : Unbound (o.map effective).toList) : Layout.bound (o.map F).toList = [] := by
  rw [Option.toList_map] at h ⊢
  exact bound_of_unbound hF h

theorem parameters_select_each {p : Select Node}
    (hF : ∀ c ∈ (Shape.selectQuery p).children, Piece.parameters (F c).2 = c.effective.met)
    (hfst : ∀ c, (F c).1 = c) (ho : (Shape.selectQuery (p.each effective)).InOrder) :
    Piece.parameters (Layout.select (p.each F)) =
      Layout.bound (Shape.selectQuery (p.each F)).children := by
  obtain ⟨hdistinct, hmodifiers⟩ := ho
  have hmem : ∀ c ∈ p.frontModifiers ++ p.distinctOn ++ p.endModifiers,
      Piece.parameters (F c).2 = c.effective.met := by
    intro c hc
    apply hF
    simp only [List.mem_append] at hc
    simp only [Shape.children, Shape.fields, Select.fields, Field.toList, List.flatMap_cons,
      List.mem_append]
    tauto
  have hlast : ∀ ms, ms ⊆ p.frontModifiers ++ p.endModifiers → ∀ m ∈ ms.map F,
      Layout.modifierPriority m.1 = 3 ∨ Piece.parameters m.2 = [] := by
    intro ms hms m hm
    obtain ⟨c, hc, rfl⟩ := List.mem_map.mp hm
    have hin := hms hc
    have hc' := hmodifiers c.effective (by
      rw [Select.each, ← List.map_append]
      exact List.mem_map_of_mem hin)
    rw [modifierPriority_effective] at hc'
    rw [hfst]
    exact hc'.imp_right (hmem c (by simp at hin ⊢; tauto)).trans
  refine Piece.parameters_select ?_ ?_ ?_
  · refine hdistinct.imp (bound_of_unbound ?_) (bound_of_unbound ?_)
    · exact fun c hc => hmem c (by simp [hc])
    · exact fun c hc => hmem c (by simp [hc])
  · exact hlast _ (List.subset_append_left _ _)
  · exact hlast _ (List.subset_append_right _ _)

theorem parameters_update_each {p : Update Node}
    (hF : ∀ c ∈ (Shape.updateQuery p).children, Piece.parameters (F c).2 = c.effective.met)
    (ho : (Shape.updateQuery (p.each effective)).InOrder) :
    Piece.parameters (Layout.update (p.each F)) =
      Layout.bound (Shape.updateQuery (p.each F)).children := by
  have hmem : ∀ c ∈ p.joins ++ p.updates ++ p.fromClause.toList,
      Piece.parameters (F c).2 = c.effective.met := by
    intro c hc
    apply hF
    simp only [List.mem_append] at hc
    simp only [Shape.children, Shape.fields, Update.fields, Field.toList, List.flatMap_cons,
      List.mem_append]
    tauto
  apply Piece.parameters_update
  obtain hfrom | hjoins | ⟨hupdates, hfrom⟩ := ho
  · exact .inl (Option.map_eq_none_iff.mpr (Option.map_eq_none_iff.mp hfrom))
  · exact .inr (.inl (bound_of_unbound (fun c hc => hmem c (by simp [hc])) hjoins))
  · refine .inr (.inr ⟨bound_of_unbound ?_ hupdates, bound_toList_of_unbound ?_ hfrom⟩)
    · exact fun c hc => hmem c (by simp [hc])
    · exact fun c hc => hmem c (List.mem_append_right _ hc)

theorem parameters_columnDefinition_each (d : Dialect) {p : ColumnDefinition Node}
    (hF : ∀ c ∈ (Shape.columnDefinition p).children, Piece.parameters (F c).2 = c.effective.met)
    (hreferences : ∀ c, p.references = some c → c.met = [])
    (ho : (Shape.columnDefinition (p.each effective)).InOrder) :
    Piece.parameters (Layout.columnDefinition d (p.each F)) =
      Layout.bound (Shape.columnDefinition (p.each F)).children := by
  have hmem : ∀ c ∈ p.references.toList ++ p.defaultTo.toList ++ p.check.toList ++
      p.generated.toList, Piece.parameters (F c).2 = c.effective.met := by
    intro c hc
    apply hF
    simp only [List.mem_append] at hc
    simp only [Shape.children, Shape.fields, ColumnDefinition.fields, Field.toList,
      List.flatMap_cons, List.mem_append]
    tauto
  refine Piece.parameters_columnDefinition d ?_ (ho.imp ?_ (And.imp ?_ ?_))
  · cases hr : p.references with
    | none => simp [ColumnDefinition.each, hr]
    | some c =>
      have hnone : c.effective.met = [] :=
        List.sublist_nil.mp (hreferences c hr ▸ c.met_effective_sublist)
      have hc := (hmem c (by simp [hr])).trans hnone
      simp [ColumnDefinition.each, hr, hc]
  · exact bound_toList_of_unbound fun c hc => hmem c (List.mem_append_right _ hc)
  · exact bound_toList_of_unbound fun c hc => hmem c (by simp only [List.mem_append, hc]; tauto)
  · exact bound_toList_of_unbound fun c hc => hmem c (by simp only [List.mem_append, hc]; tauto)

end Moving

/-- A tree binds what the walk over its shown part meets. -/
theorem parameters_piecesIn (d : Dialect) {n : Node} (h : n.wellFormed = true)
    (ho : n.effective.Every Shape.InOrder) (parent : Option Kind) :
    Piece.parameters (n.piecesIn d parent) = n.effective.met := by
  induction n using childrenInduction generalizing parent with
  | h s ih =>
    rw [effective_mk, every_mk, Shape.children_map] at ho
    obtain ⟨hs, hchildren⟩ := ho
    let F : Node → Layout.Part := fun c => (c, c.piecesIn d (some s.kind))
    have hF : ∀ c ∈ s.effective.children, Piece.parameters (F c).2 = c.effective.met := by
      intro c hc
      have hmem := mem_children_of_mem_effective hc
      exact ih c hmem (wellFormed_of_mem_children h hmem)
        (hchildren _ (List.mem_map_of_mem hc)) _
    have hall : Layout.bound (s.map F).effective.children =
        s.effective.children.flatMap fun c => c.effective.met := by
      rw [Shape.effective_map, Shape.children_map, bound_map_effective hF, List.flatMap_map]
    rw [piecesIn_mk, met_effective_mk, ← hall]
    by_cases hsteady : s.steady = true
    · rw [← Shape.steady_map F] at hsteady
      have hslot : ∀ {slot a}, (slot, a) ∈ (s.map F).slotted →
          ∃ c, (slot, c) ∈ s.slotted ∧ a = F c := by
        intro slot a ha
        rw [Shape.slotted_map] at ha
        obtain ⟨x, hx, he⟩ := List.mem_map.mp ha
        cases he
        exact ⟨x.2, hx, rfl⟩
      rw [Piece.parameters_pieces d parent hsteady ?_ ?_ ?_, Shape.bound_map]
      · intro a ha
        obtain ⟨c, hc, rfl⟩ := hslot ha
        exact parameters_of_identifier (eq_of_beq (wellFormed_mk_iff.mp h _ hc).1).symm _
      · intro j hj
        obtain ⟨c, hc, rfl⟩ := hslot hj
        exact parameters_tail_of_join d (kind_of_usingJoin h hc) _
      · intro a ha
        rw [Shape.children_map] at ha
        obtain ⟨c, -, rfl⟩ := List.mem_map.mp ha
        exact fun hc => parameters_of_hasNoItems hc _
    · rw [Shape.map_eq_each] at hs ⊢
      cases s with
      | selectQuery p =>
        exact (Piece.parameters_enclosed _ parent _).trans
          (parameters_select_each hF (fun _ => rfl) hs)
      | updateQuery p =>
        exact (Piece.parameters_enclosed _ parent _).trans (parameters_update_each hF hs)
      | columnDefinition p =>
        refine parameters_columnDefinition_each d hF ?_ hs
        intro c hc
        have hx := wellFormed_mk_iff.mp h (.only .references, c) (by
          simp [Shape.slotted, Shape.fields, ColumnDefinition.fields, hc])
        exact met_of_names hx.2 (eq_of_beq hx.1 ▸ rfl)
      | _ => exact absurd rfl hsteady

/-- The bound values that the walk over the shown part of a statement meets are its parameters, in
their order, if nothing is moved past one of them. -/
theorem compile_met {n : Node} (h : n.wellFormed = true)
    (ho : n.effective.Every Shape.InOrder) :
    ∃ c, n.compile .postgres = .ok c ∧ c.parameters = n.effective.met ∧
      c.parameters.Sublist n.met ∧ (n.effective = n → c.parameters = n.met) := by
  have hadapt : n.rewrite (Dialect.adapt .postgres) = n := n.rewrite_id
  have hr : Piece.refusal? ((n.rewrite (Dialect.adapt .postgres)).pieces .postgres) = none := by
    rw [hadapt]
    exact refusal?_eq_none rfl h
  have hmet : Piece.parameters ((n.rewrite (Dialect.adapt .postgres)).pieces .postgres) =
      n.effective.met := by
    rw [hadapt]
    exact parameters_piecesIn .postgres h ho none
  refine ⟨_, compile_of_no_refusal h hr, hmet, ?_, ?_⟩
  · exact hmet ▸ n.met_effective_sublist
  · intro he
    exact hmet.trans (by rw [he])

/-- An update with a from clause, whose join binds nothing. -/
theorem compile_met_update :
    let n : Node := ⟨.updateQuery {
      table := some (.table none "t")
      updates := [⟨.columnUpdate (.column "a") (.bound (.int 1))⟩]
      fromClause := some ⟨.fromClause [⟨.aliased ⟨.selectQuery {
        whereClause := some ⟨.whereClause (.bound (.int 2))⟩ }⟩ (.identifier "u")⟩]⟩
      joins := [⟨.join .inner (.table none "v") none⟩]
      whereClause := some ⟨.whereClause (.bound (.int 3))⟩ }⟩
    n.wellFormed = true ∧ n.effective.Every Shape.InOrder ∧
      ∃ c, n.compile .postgres = .ok c ∧ c.parameters = n.effective.met ∧
        c.parameters.Sublist n.met ∧ (n.effective = n → c.parameters = n.met) := by
  intro n
  have h : n.wellFormed = true := rfl
  have ho : n.effective.Every Shape.InOrder := by decide
  exact ⟨h, ho, compile_met h ho⟩

/-- An update that a later call makes the conflict pass over is met by the walk, and not bound. -/
theorem met_ne_parameters_doNothing :
    ∃ (p : Insert Node) (c : Compiled),
      (do
        let p ← Start.insertInto {} "t" false
        let p ← p.ofRows [[("a", .bound (.int 1))]]
        p.whenConflict fun q => do
          let q ← q.onColumns ["a"]
          let q ← q.updating [("b", .bound (.int 2))]
          return q.nothing) = .ok p ∧
        p.node.compile .postgres = .ok c ∧ c.parameters = [.int 1] ∧
          p.node.met = [.int 1, .int 2] ∧ c.parameters ≠ p.node.met :=
  ⟨_, _, rfl, rfl, rfl, rfl, nofun⟩

end Node

end SqlTree
