import SqlTree.Build.Operand
import SqlTree.Proofs.Condition.Filter
import SqlTree.Proofs.Read.Names
import SqlTree.Proofs.Render.Inlined
import SqlTree.Proofs.Render.Order

/-!
# What definitions bind

A tree binds the same values in every dialect if nothing in it is moved past a bound value and no
test for truth binds (`Node.Binds`).  Where the walk over a tree meets no value, the tree binds none
(`Node.ValueFree.binds`); a node that moves nothing binds what its children bind, in their order
(`Node.binds_mk`).
-/

namespace SqlTree

open Condition

/-- Trees without a value that is bound. -/
structure Node.ValueFree (n : Node) : Prop where
  wellFormed : n.wellFormed = true
  met : n.met = []

/-- Trees that bind these values in every dialect; they are those that the walk meets. -/
structure Node.Binds (n : Node) (vs : List Value) : Prop where
  wellFormed : n.wellFormed = true
  met : n.met = vs
  parameters : ∀ d parent, Piece.parameters ((n.rewrite d.adapt).piecesIn d parent) = vs

/-- Nodes, each with the position it stands in. -/
abbrev Slotted := List (Slot × Node)

namespace Slotted

/-- Each of the nodes may stand in its position and binds nothing. -/
def ValueFree (xs : Slotted) : Prop :=
  ∀ x ∈ xs, x.1.admits x.2.kind = true ∧ x.2.ValueFree

/-- Each of the nodes may stand in its position, and together they bind these values. -/
inductive Binds : Slotted → List Value → Prop
  | nil : Binds [] []
  | cons {slot : Slot} {n : Node} {xs : Slotted} {vs ws : List Value}
    (hkind : slot.admits n.kind = true) (hn : n.Binds vs) (h : Binds xs ws) :
    Binds ((slot, n) :: xs) (vs ++ ws)

theorem Binds.append {xs ys : Slotted} {vs ws : List Value} (hx : Binds xs vs) (hy : Binds ys ws) :
    Binds (xs ++ ys) (vs ++ ws) := by
  induction hx with
  | nil => exact hy
  | cons hkind hn _ ih =>
    rw [List.append_assoc]
    exact .cons hkind hn ih

theorem Binds.single {slot : Slot} {n : Node} {vs : List Value}
    (hkind : slot.admits n.kind = true) (hn : n.Binds vs) : Binds [(slot, n)] vs := by
  have h := Binds.cons hkind hn .nil
  rwa [List.append_nil] at h

theorem Binds.of_mem {xs : Slotted} {vs : List Value} (h : Binds xs vs) {x : Slot × Node}
    (hx : x ∈ xs) : x.1.admits x.2.kind = true ∧ x.2.Binds x.2.met := by
  induction h with
  | nil => cases hx
  | cons hkind hn _ ih =>
    obtain rfl | hx := List.mem_cons.mp hx
    · exact ⟨hkind, hn.met ▸ hn⟩
    · exact ih hx

theorem Binds.met {xs : Slotted} {vs : List Value} (h : Binds xs vs) :
    (xs.map Prod.snd).flatMap Node.met = vs := by
  induction h with
  | nil => rfl
  | cons _ hn _ ih => rw [List.map_cons, List.flatMap_cons, hn.met, ih]

theorem valueFree_nil : ValueFree [] := List.forall_mem_nil _

theorem valueFree_singleton {slot : Slot} {n : Node} :
    ValueFree [(slot, n)] ↔ slot.admits n.kind = true ∧ n.ValueFree := List.forall_mem_singleton

theorem valueFree_append {xs ys : Slotted} :
    ValueFree (xs ++ ys) ↔ xs.ValueFree ∧ ys.ValueFree := List.forall_mem_append

end Slotted

namespace Node

theorem valueFree_mk {s : Shape Node} :
    ValueFree ⟨s⟩ ↔ s.bound = [] ∧ Slotted.ValueFree s.slotted := by
  have hmet : met ⟨s⟩ = [] ↔ s.bound = [] ∧ ∀ x ∈ s.slotted, x.2.met = [] := by
    rw [met_mk, List.append_eq_nil_iff, List.flatMap_eq_nil_iff, ← Shape.map_snd_slotted,
      List.forall_mem_map]
  constructor
  · rintro ⟨hw, hm⟩
    obtain ⟨hbound, hslots⟩ := hmet.mp hm
    refine ⟨hbound, fun x hx => ?_⟩
    obtain ⟨hkind, hx'⟩ := wellFormed_mk_iff.mp hw x hx
    exact ⟨hkind, hx', hslots x hx⟩
  · rintro ⟨hbound, hslots⟩
    refine ⟨wellFormed_mk_iff.mpr fun x hx => ?_, hmet.mpr ⟨hbound, fun x hx => ?_⟩⟩
    · exact ⟨(hslots x hx).1, (hslots x hx).2.wellFormed⟩
    · exact (hslots x hx).2.met

theorem OfNames.valueFree {n : Node} (h : n.OfNames) : n.ValueFree := by
  induction n using childrenInduction with
  | h s ih =>
    obtain ⟨⟨hfits, hname⟩, hchildren⟩ := every_mk.mp h
    refine valueFree_mk.mpr ⟨?_, fun x hx => ?_⟩
    · cases s <;> first | rfl | cases hname
    · have hc := Shape.mem_children_of_mem_slotted hx
      exact ⟨hfits x hx, ih x.2 hc (hchildren x.2 hc)⟩

theorem OfNames.valueFree_only {n : Node} {k : Kind} (h : n.kind = k ∧ n.OfNames) :
    (Slot.only k).admits n.kind = true ∧ n.ValueFree :=
  ⟨beq_iff_eq.mpr h.1.symm, h.2.valueFree⟩

theorem Binds.compile {n : Node} {vs : List Value} (h : n.Binds vs) {d : Dialect} {c : Compiled}
    (hc : n.compile d = .ok c) : c.parameters = vs :=
  (parameters_of_compile_eq_ok h.wellFormed hc).trans (h.parameters d none)

/-- Nothing is moved past a bound value where there is none. -/
theorem inOrder_of_met_eq_nil {s : Shape Node} (h : ∀ c ∈ s.children, c.met = []) :
    s.InOrder := by
  have hunbound : ∀ ns : List Node, (∀ c ∈ ns, c ∈ s.children) → Unbound ns :=
    fun ns hns => List.flatMap_eq_nil_iff.mpr fun c hc => h c (hns c hc)
  cases s with
  | selectQuery p =>
    refine ⟨.inl (hunbound _ ?_), fun m hm => .inr (h m ?_)⟩
    · simp +contextual [Shape.children, Shape.fields, Select.fields, Field.toList]
    · simp only [List.mem_append] at hm
      simp [Shape.children, Shape.fields, Select.fields, Field.toList]
      tauto
  | updateQuery p =>
    refine .inr (.inl (hunbound _ ?_))
    simp +contextual [Shape.children, Shape.fields, Update.fields, Field.toList]
  | columnDefinition p =>
    refine .inl (hunbound _ ?_)
    simp +contextual [Shape.children, Shape.fields, ColumnDefinition.fields, Field.toList]
  | _ => trivial

theorem every_inOrder_of_met_eq_nil {n : Node} (h : n.met = []) : n.Every Shape.InOrder := by
  induction n using childrenInduction with
  | h s ih =>
    rw [met_mk, List.append_eq_nil_iff, List.flatMap_eq_nil_iff] at h
    exact every_mk.mpr ⟨inOrder_of_met_eq_nil h.2, fun c hc => ih c hc (h.2 c hc)⟩

theorem ValueFree.binds {n : Node} (h : n.ValueFree) : n.Binds [] where
  wellFormed := h.wellFormed
  met := h.met
  parameters d parent := by
    have hshown : n.effective.met = [] :=
      List.sublist_nil.mp (h.met ▸ n.met_effective_sublist)
    have hpostgres : Piece.parameters (n.piecesIn .postgres parent) = [] :=
      (parameters_piecesIn .postgres h.wellFormed (every_inOrder_of_met_eq_nil hshown)
        parent).trans hshown
    have hwritten : Piece.parameters ((n.rewrite d.written).piecesIn .postgres parent) = [] := by
      unfold Dialect.written
      split
      · exact List.sublist_nil.mp
          (hpostgres ▸ parameters_testWritten_sublist .postgres h.wellFormed parent)
      · rw [rewrite_id, hpostgres]
    have hbound := bound_rewrite_adapt d h.wellFormed parent
    rw [Piece.bound, Piece.bound, hwritten] at hbound
    exact List.perm_nil.mp (Multiset.coe_eq_coe.mp hbound)

end Node

theorem Slotted.ValueFree.binds {xs : Slotted} (h : xs.ValueFree) : xs.Binds [] := by
  induction xs with
  | nil => exact .nil
  | cons x xs ih =>
    obtain ⟨hx, hxs⟩ := List.forall_mem_cons.mp h
    exact .cons hx.1 hx.2.binds (ih hxs)

namespace Node

theorem piecesIn_adapted_of_not_isTest (d : Dialect) {s : Shape Node} (hs : s.kind ≠ .selectQuery)
    (ht : ¬ IsTest ⟨s⟩) (parent : Option Kind) :
    (rewrite d.adapt ⟨s⟩).piecesIn d parent =
      Layout.pieces d parent (s.map (adaptedPart d s.kind)) := by
  have hadapt : d.adapt ⟨s.map (rewrite d.adapt)⟩ = ⟨s.map (rewrite d.adapt)⟩ := by
    apply d.adapt_of_not_isTest
    · exact fun h => hs ((Shape.kind_map _ s).symm.trans h)
    · exact fun h => ht ((isTest_map d.keepsTests_adapt s).mp h)
  rw [rewrite_mk, hadapt, piecesIn_mk, Shape.map_map, Shape.kind_map]
  rfl

section Children

variable {s : Shape Node} {vs : List Value} (h : Slotted.Binds s.slotted vs)
include h

theorem wellFormed_of_binds : wellFormed ⟨s⟩ = true :=
  wellFormed_mk_iff.mpr fun _ hx => ⟨(h.of_mem hx).1, (h.of_mem hx).2.wellFormed⟩

theorem bound_adaptedPart (d : Dialect) {cs : List Node} (hcs : cs ⊆ s.children) :
    Layout.bound (cs.map (adaptedPart d s.kind)) = cs.flatMap met := by
  rw [Layout.bound, List.flatMap_map]
  refine List.flatMap_congr fun c hc => ?_
  have hc := hcs hc
  rw [← Shape.map_snd_slotted] at hc
  obtain ⟨_, hx, rfl⟩ := List.mem_map.mp hc
  exact (h.of_mem hx).2.parameters d _

theorem met_of_binds : met ⟨s⟩ = s.bound ++ vs := by
  rw [met_mk, ← Shape.map_snd_slotted, h.met]

end Children

theorem not_isTest_of_kind {n : Node} (h : (n.kind == .binaryOperation) = false) : ¬ n.IsTest :=
  fun ht => ne_of_beq_false h ht.kind

/-- A node that moves nothing binds what its children bind, if it shows them all. -/
theorem binds_mk {s : Shape Node} {vs : List Value} (h : Slotted.Binds s.slotted vs)
    (hsteady : s.steady = true) (hshown : s.effective = s) (ht : ¬ IsTest ⟨s⟩) :
    Binds ⟨s⟩ (s.bound ++ vs) := by
  have hs : s.kind ≠ .selectQuery := by
    intro hs
    cases s with
    | selectQuery p => cases hsteady
    | _ => cases hs
  refine ⟨wellFormed_of_binds h, met_of_binds h, fun d parent => ?_⟩
  have hslot : ∀ {slot a}, (slot, a) ∈ (s.map (adaptedPart d s.kind)).slotted →
      ∃ c, (slot, c) ∈ s.slotted ∧ a = adaptedPart d s.kind c := by
    intro slot a ha
    rw [Shape.slotted_map] at ha
    obtain ⟨⟨_, c⟩, hc, he⟩ := List.mem_map.mp ha
    cases he
    exact ⟨c, hc, rfl⟩
  have hkind : ∀ {k c}, (Slot.only k, c) ∈ s.slotted → (c.rewrite d.adapt).kind = k :=
    fun hc => (kind_rewrite d.kind_adapt _).trans (eq_of_beq (h.of_mem hc).1).symm
  rw [piecesIn_adapted_of_not_isTest d hs ht]
  refine (Piece.parameters_pieces d parent (s := s.map (adaptedPart d s.kind))
    ((Shape.steady_map _ s).trans hsteady) ?_ ?_ ?_).trans ?_
  · intro a ha
    obtain ⟨c, hc, rfl⟩ := hslot ha
    exact parameters_of_identifier (hkind hc) _
  · intro j hj
    obtain ⟨c, hc, rfl⟩ := hslot hj
    exact parameters_tail_of_join d (hkind hc) _
  · intro a ha
    rw [Shape.children_map] at ha
    obtain ⟨c, -, rfl⟩ := List.mem_map.mp ha
    exact fun hc => parameters_of_hasNoItems hc _
  · rw [Shape.bound_map, Shape.effective_map, hshown, Shape.children_map,
      bound_adaptedPart h d (List.Subset.refl _), ← Shape.map_snd_slotted, h.met]

/-- The expression of a column moves past its default and its check, but it binds nothing. -/
theorem binds_columnDefinition {p : ColumnDefinition Node} {vs : List Value}
    (h : Slotted.Binds (Shape.columnDefinition p).slotted vs)
    (hgenerated : Unbound p.generated.toList) : Binds ⟨.columnDefinition p⟩ vs := by
  refine ⟨wellFormed_of_binds h, met_of_binds h, fun d parent => ?_⟩
  have hreferences : Unbound p.references.toList := by
    refine List.flatMap_eq_nil_iff.mpr fun c hc => ?_
    have hx := h.of_mem (x := (.only .references, c)) (by
      simpa [Shape.slotted, Shape.fields, ColumnDefinition.fields] using hc)
    exact met_of_names hx.2.wellFormed (eq_of_beq hx.1 ▸ rfl)
  have hbound : ∀ o : Option Node, o.toList ⊆ (Shape.columnDefinition p).children →
      Unbound o.toList → Layout.bound (o.map (adaptedPart d .columnDefinition)).toList = [] := by
    intro o ho hnone
    rw [Option.toList_map]
    exact (bound_adaptedPart h d ho).trans hnone
  rw [piecesIn_adapted_of_not_isTest d (s := .columnDefinition p) (ne_of_beq_false rfl)
      (not_isTest_of_kind rfl), ← h.met, Shape.map_snd_slotted,
    ← bound_adaptedPart h d (List.Subset.refl _), ← Shape.children_map, Shape.map_eq_each]
  refine Piece.parameters_columnDefinition d (hbound p.references ?_ hreferences)
    (.inl (hbound p.generated ?_ hgenerated))
  all_goals
    intro c hc
    simp [Shape.children, Shape.fields, ColumnDefinition.fields, Field.toList,
      Option.mem_toList.mp hc]

theorem met_inlined {s : Shape Node} (h : ∀ c ∈ s.children, c.met = []) :
    met (inlined ⟨s⟩) = [] := by
  by_cases hs : Layout.isLeaf s = true
  · obtain ⟨name, rfl⟩ | ⟨v, immediate, rfl⟩ | ⟨vs, rfl⟩ := Layout.eq_of_isLeaf hs
    · rfl
    · rfl
    · rw [inlined, met_mk]
      refine List.flatMap_eq_nil_iff.mpr fun c hc => ?_
      simp only [Shape.children, Shape.fields, Field.toList, List.flatMap_cons, List.flatMap_nil,
        List.append_nil, List.mem_map] at hc
      obtain ⟨v, -, rfl⟩ := hc
      rfl
  · have hs := Bool.eq_false_iff.mpr hs
    have hbound : s.bound = [] := by
      cases s with
      | value v immediate => cases hs
      | valueList items =>
        cases items with
        | primitive vs => cases hs
        | expressions as => rfl
      | _ => rfl
    rw [inlined_of_not_leaf hs, met_mk, hbound]
    exact List.flatMap_eq_nil_iff.mpr h

/-- Trees whose values were all written out bind nothing. -/
theorem valueFree_rewrite_inlined {n : Node} (h : n.wellFormed = true) :
    (n.rewrite inlined).ValueFree := by
  refine ⟨wellFormed_rewrite kind_inlined (fun _ => wellFormed_inlined) h, ?_⟩
  induction n using childrenInduction with
  | h s ih =>
    rw [rewrite_mk]
    refine met_inlined fun c hc => ?_
    rw [Shape.children_map] at hc
    obtain ⟨c', hc', rfl⟩ := List.mem_map.mp hc
    exact ih c' hc' (wellFormed_of_mem_children h hc')

end Node

end SqlTree
