import SqlTree.Proofs.Tree.Rewriting

/-!
# Conditions on all nodes

A condition on shapes that replacing children does not touch, and that one step of a rewriting
keeps, is kept by the whole rewriting (`Node.every_rewrite`).
-/

namespace SqlTree

/-- Whether every child has a kind that its position admits. -/
def Shape.Fits (s : Shape Node) : Prop := ∀ x ∈ s.slotted, x.1.admits x.2.kind = true

theorem Shape.Fits.map {s : Shape Node} (h : s.Fits) {g : Node → Node}
    (hg : ∀ n, (g n).kind = n.kind) : (s.map g).Fits := by
  intro x hx
  rw [Shape.slotted_map] at hx
  obtain ⟨y, hy, rfl⟩ := List.mem_map.mp hx
  simpa only [hg] using h y hy

namespace Node

/-- Whether a condition holds of the shapes of all nodes of the tree. -/
def Every (p : Shape Node → Prop) : Node → Prop :=
  para fun n s => p n.shape ∧ ∀ c ∈ s.children, c.2

variable {p q : Shape Node → Prop}

theorem every_mk {s : Shape Node} : Every p ⟨s⟩ ↔ p s ∧ ∀ c ∈ s.children, c.Every p := by
  rw [Every, para_mk, Shape.children_map]
  simp only [List.mem_map, forall_exists_index, and_imp, forall_apply_eq_imp_iff₂, shape]

/-- A condition that can be decided of shapes can be decided of trees. -/
instance [DecidablePred p] : DecidablePred (Every p) := fun n =>
  decidable_of_iff
    (para (fun n s => decide (p n.shape) && s.children.all fun c => c.2) n = true) <| by
      induction n using childrenInduction with
      | h s ih =>
        rw [every_mk, para_mk, Bool.and_eq_true, decide_eq_true_iff, Shape.children_map,
          List.all_map, List.all_eq_true]
        exact and_congr_right' (forall₂_congr ih)

theorem Every.imp (h : ∀ s, p s → q s) {n : Node} (hn : n.Every p) : n.Every q := by
  induction n using childrenInduction with
  | h s ih =>
    obtain ⟨hs, hchildren⟩ := every_mk.mp hn
    exact every_mk.mpr ⟨h s hs, fun c hc => ih c hc (hchildren c hc)⟩

theorem Every.and {n : Node} (hp : n.Every p) (hq : n.Every q) :
    n.Every fun s => p s ∧ q s := by
  induction n using childrenInduction with
  | h s ih =>
    obtain ⟨hp, hps⟩ := every_mk.mp hp
    obtain ⟨hq, hqs⟩ := every_mk.mp hq
    exact every_mk.mpr ⟨⟨hp, hq⟩, fun c hc => ih c hc (hps c hc) (hqs c hc)⟩

theorem every_of_forall (h : ∀ s, p s) (n : Node) : n.Every p := by
  induction n using childrenInduction with
  | h s ih => exact every_mk.mpr ⟨h s, ih⟩

/-- What holds of every node holds of every node of each subtree. -/
theorem Every.below {n : Node} (h : n.Every p) : n.Every fun s => Every p ⟨s⟩ := by
  induction n using childrenInduction with
  | h s ih => exact every_mk.mpr ⟨h, fun c hc => ih c hc ((every_mk.mp h).2 c hc)⟩

theorem every_fits_iff {n : Node} : n.Every Shape.Fits ↔ n.wellFormed = true := by
  induction n using childrenInduction with
  | h s ih =>
    rw [every_mk, wellFormed_mk_iff]
    constructor
    · intro h x hx
      have hc := Shape.mem_children_of_mem_slotted hx
      exact ⟨h.1 x hx, (ih _ hc).mp (h.2 _ hc)⟩
    · intro h
      refine ⟨fun x hx => (h x hx).1, fun c hc => (ih c hc).mpr ?_⟩
      exact wellFormed_of_mem_children (wellFormed_mk_iff.mpr h) hc

/-- A rewriting keeps what each of its steps keeps. -/
theorem every_rewrite {f : Node → Node} (hmap : ∀ s, p s → p (s.map (rewrite f)))
    (hf : ∀ n, n.Every p → (f n).Every p) {n : Node} (h : n.Every p) :
    (n.rewrite f).Every p := by
  induction n using childrenInduction with
  | h s ih =>
    obtain ⟨hs, hchildren⟩ := every_mk.mp h
    rw [rewrite_mk]
    apply hf
    rw [every_mk, Shape.children_map]
    refine ⟨hmap s hs, fun m hm => ?_⟩
    obtain ⟨c, hc, rfl⟩ := List.mem_map.mp hm
    exact ih c hc (hchildren c hc)

end Node

end SqlTree
