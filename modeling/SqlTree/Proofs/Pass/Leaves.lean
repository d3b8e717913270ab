import SqlTree.Proofs.Pass.Adapting
import SqlTree.Proofs.Render.Congruence

/-!
# Rewriting leaves

Names and values are the leaves of a tree that a statement is written from.  A rewriting that
touches them alone can be done before or after a tree is adapted to a dialect
(`Node.OnLeaves.rewrite_adapt`), and what it does to the pieces of a leaf it does to the pieces of a
tree (`Node.OnLeaves.piecesIn_rewrite`).
-/

namespace SqlTree

namespace Node

theorem isLeaf_map {α β : Type} (f : α → β) (s : Shape α) :
    Layout.isLeaf (s.map f) = Layout.isLeaf s := by
  rw [Shape.map_eq_each]
  cases s with
  | valueList items => cases items <;> rfl
  | _ => rfl

theorem children_eq_nil_of_isLeaf {s : Shape Node} (h : Layout.isLeaf s = true) :
    s.children = [] := by
  obtain ⟨name, rfl⟩ | ⟨v, immediate, rfl⟩ | ⟨vs, rfl⟩ := Layout.eq_of_isLeaf h <;> rfl

theorem rewrite_of_isLeaf (f : Node → Node) {s : Shape Node} (h : Layout.isLeaf s = true) :
    rewrite f ⟨s⟩ = f ⟨s⟩ := rewrite_of_no_children f (children_eq_nil_of_isLeaf h)

theorem rewrite_adapt_of_isLeaf (d : Dialect) {s : Shape Node} (h : Layout.isLeaf s = true) :
    rewrite d.adapt ⟨s⟩ = ⟨s⟩ := by
  rw [rewrite_of_isLeaf _ h]
  obtain ⟨name, rfl⟩ | ⟨v, immediate, rfl⟩ | ⟨vs, rfl⟩ := Layout.eq_of_isLeaf h
  all_goals exact d.adapt_eq_self nofun nofun

/-- A list is left as it is by a rewriting that leaves its items. -/
theorem rewrite_valueList {f : Node → Node} {ns : List Node} (h : ∀ n ∈ ns, rewrite f n = n)
    (hf : f ⟨.valueList (.expressions ns)⟩ = ⟨.valueList (.expressions ns)⟩) :
    rewrite f ⟨.valueList (.expressions ns)⟩ = ⟨.valueList (.expressions ns)⟩ := by
  have hns : ns.map (rewrite f) = ns := (List.map_congr_left h).trans (List.map_id _)
  rw [rewrite_mk, Shape.map_eq_each, Shape.each, ListItems.each, hns]
  exact hf

theorem wellFormed_valueList {ns : List Node} (h : ∀ n ∈ ns, n.wellFormed = true) :
    wellFormed ⟨.valueList (.expressions ns)⟩ = true := by
  refine wellFormed_mk_iff.mpr fun x hx => ?_
  simp only [Shape.slotted, Shape.fields, List.flatMap_cons, List.flatMap_nil, Field.slotted,
    List.append_nil, List.mem_map] at hx
  obtain ⟨n, hn, rfl⟩ := hx
  exact ⟨rfl, h n hn⟩

/-- A rewriting of names and values alone.  No value becomes another one, and the bits that
dialects without truth values compare with stay as they are. -/
structure OnLeaves (f : Node → Node) : Prop where
  kind : ∀ n, (f n).kind = n.kind
  other : ∀ {s : Shape Node}, Layout.isLeaf s = false → f ⟨s⟩ = ⟨s⟩
  value : ∀ v i, ∃ j, f ⟨.value v i⟩ = ⟨.value v j⟩
  bit : ∀ k, f ⟨.value (.int k) true⟩ = ⟨.value (.int k) true⟩
  adapted : ∀ (d : Dialect) {s : Shape Node}, Layout.isLeaf s = true →
    (f ⟨s⟩).rewrite d.adapt = f ⟨s⟩

namespace OnLeaves

variable {f : Node → Node} (hf : OnLeaves f)
include hf

theorem rewrite_other {s : Shape Node} (h : Layout.isLeaf s = false) :
    rewrite f ⟨s⟩ = ⟨s.map (rewrite f)⟩ := by
  rw [rewrite_mk, hf.other ((isLeaf_map _ s).trans h)]

theorem rewrite_each {s : Shape Node} (h : Layout.isLeaf s = false) :
    rewrite f ⟨s⟩ = ⟨s.each (rewrite f)⟩ := by
  rw [hf.rewrite_other h, Shape.map_eq_each]

theorem keepsLimits : KeepsLimits (rewrite f) where
  kind := kind_rewrite hf.kind
  limit rows := hf.rewrite_each rfl
  fetch rows m := hf.rewrite_each rfl
  top rows m := hf.rewrite_each rfl
  anyOrder := by
    have hraw : rewrite f ⟨.raw ["(select null)"] []⟩ = ⟨.raw ["(select null)"] []⟩ :=
      hf.rewrite_each rfl
    rw [Select.anyOrder, hf.rewrite_each rfl, Shape.each, List.map_cons, List.map_nil,
      hf.rewrite_each rfl, Shape.each, hraw]

theorem paginateNode_rewrite (style : Pagination) (bits : Bool) (n : Node) :
    paginateNode style bits (n.rewrite f) = (paginateNode style bits n).rewrite f := by
  have hk := kind_rewrite hf.kind n
  by_cases hs : n.kind = .selectQuery
  · obtain ⟨s⟩ := n
    cases s with
    | selectQuery p =>
      show paginateNode style bits (rewrite f ⟨.selectQuery p⟩) =
        rewrite f ⟨.selectQuery (p.paginate style)⟩
      rw [hf.rewrite_each rfl, hf.rewrite_each rfl]
      simp only [Shape.each, paginateNode, Select.paginate_each hf.keepsLimits]
    | _ => cases hs
  by_cases hb : n.kind = .binaryOperation
  · obtain ⟨s⟩ := n
    cases s with
    | binaryOperation l op r =>
      cases bits with
      | true =>
        have hbit := bitComparison_rewrite hf.kind (fun _ _ _ => hf.other rfl)
          (fun _ => hf.other rfl) hf.value hf.bit l op r
        rw [hf.rewrite_each rfl] at hbit ⊢
        exact hbit
      | false =>
        rw [hf.rewrite_each rfl]
        exact (hf.rewrite_each rfl).symm
    | _ => cases hb
  · rw [paginateNode_eq_self _ _ hs hb,
      paginateNode_eq_self _ _ (by rwa [hk]) (by rwa [hk])]

theorem adapt_rewrite (d : Dialect) (n : Node) : d.adapt (n.rewrite f) = (d.adapt n).rewrite f := by
  cases d with
  | mssql => exact hf.paginateNode_rewrite _ _ n
  | oracle => exact hf.paginateNode_rewrite _ _ n
  | _ => rfl

/-- Leaves can be rewritten before or after a tree is adapted to a dialect. -/
theorem rewrite_adapt (d : Dialect) (n : Node) :
    (n.rewrite f).rewrite d.adapt = (n.rewrite d.adapt).rewrite f := by
  induction n using childrenInduction with
  | h s ih =>
    by_cases hs : Layout.isLeaf s = true
    · rw [rewrite_adapt_of_isLeaf d hs, rewrite_of_isLeaf f hs, hf.adapted d hs]
    · have hs := Bool.eq_false_iff.mpr hs
      have hmap : s.map (rewrite d.adapt ∘ rewrite f) = s.map (rewrite f ∘ rewrite d.adapt) :=
        s.map_congr ih
      rw [hf.rewrite_other hs, rewrite_mk, Shape.map_map, rewrite_mk, ← hf.adapt_rewrite,
        hf.rewrite_other ((isLeaf_map _ s).trans hs), Shape.map_map, hmap]

theorem alike_rewrite (n : Node) : Layout.Alike n (n.rewrite f) := by
  obtain ⟨s⟩ := n
  by_cases hs : Layout.isLeaf s = true
  · apply Layout.Alike.ofKind (kind_rewrite hf.kind _)
    all_goals
      obtain ⟨name, rfl⟩ | ⟨v, immediate, rfl⟩ | ⟨vs, rfl⟩ := Layout.eq_of_isLeaf hs <;> nofun
  · rw [hf.rewrite_other (Bool.eq_false_iff.mpr hs)]
    simpa using Layout.Alike.map s id (rewrite f)

/-- What is done to the pieces of a leaf is done to the pieces of a tree, if the words of the
language are left as they are. -/
theorem piecesIn_rewrite {d : Dialect} {g : Piece → Piece}
    (hg : Layout.Congruence d d fun ps qs => qs = ps.map g)
    (hleaf : ∀ {s : Shape Node}, Layout.isLeaf s = true → ∀ parent,
      (f ⟨s⟩).piecesIn d parent = (piecesIn d ⟨s⟩ parent).map g)
    (n : Node) (parent : Option Kind) :
    (n.rewrite f).piecesIn d parent = (n.piecesIn d parent).map g := by
  induction n using childrenInduction generalizing parent with
  | h s ih =>
    by_cases hs : Layout.isLeaf s = true
    · rw [rewrite_of_isLeaf f hs, hleaf hs]
    · have hs := Bool.eq_false_iff.mpr hs
      rw [hf.rewrite_other hs, piecesIn_mk, piecesIn_mk, Shape.map_map, Shape.kind_map]
      apply hg.pieces
      · exact fun c hc => ih c hc _
      · exact fun c _ => hf.alike_rewrite c
      · intro h
        rw [hs] at h
        cases h
      · intro j hj
        have hj := congrArg List.tail (ih j (Shape.mem_children_of_mem_slotted hj) (some s.kind))
        exact hj.trans List.map_tail.symm

end OnLeaves

end Node

end SqlTree
