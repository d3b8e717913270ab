import SqlTree.Proofs.Tree.Para
import SqlTree.Proofs.Tree.Visits
import SqlTree.Tree.Walk

/-!
# Rewriting trees

A tree is well formed if every node has a kind that its position admits.  In a well-formed tree a
transformation that keeps kinds succeeds, and its result is the tree rewritten from the leaves up
(`Node.transform_eq_ok`); a transformation can only succeed in a well-formed tree.
-/

namespace SqlTree

namespace Node

instance : Inhabited Node := ⟨⟨.selectAll⟩⟩

/-- The number of nodes below and at a node. -/
def size : Node → Nat := para fun _ s => (s.children.map Prod.snd).foldr Nat.add 1

theorem size_mk (s : Shape Node) : size ⟨s⟩ = (s.children.map size).foldr Nat.add 1 := by
  rw [size, para_mk, Shape.children_map, List.map_map]
  rfl

theorem foldr_add_pos (l : List Nat) : 0 < l.foldr Nat.add 1 := by
  induction l with
  | nil => exact Nat.one_pos
  | cons b l ih =>
    rw [List.foldr_cons, Nat.add_eq]
    omega

theorem lt_foldr_add_of_mem {l : List Nat} {a : Nat} (h : a ∈ l) : a < l.foldr Nat.add 1 := by
  induction l with
  | nil => cases h
  | cons b l ih =>
    have hpos := foldr_add_pos l
    rw [List.foldr_cons, Nat.add_eq]
    cases h with
    | head => omega
    | tail _ h =>
      have hlt := ih h
      omega

theorem size_lt_of_mem_children {s : Shape Node} {c : Node} (h : c ∈ s.children) :
    c.size < size ⟨s⟩ := by
  rw [size_mk]
  exact lt_foldr_add_of_mem (List.mem_map_of_mem h)

/-- Induction over trees: a node may count on its children. -/
theorem childrenInduction {P : Node → Prop}
    (h : ∀ s : Shape Node, (∀ c ∈ s.children, P c) → P ⟨s⟩) : ∀ n, P n
  | ⟨s⟩ => h s fun c _ => childrenInduction h c
termination_by n => n.size
decreasing_by exact size_lt_of_mem_children ‹_›

/-- Whether every node of the tree has a kind that its position admits. -/
def wellFormed : Node → Bool :=
  para fun _ s => s.slotted.all fun p => p.1.admits p.2.1.kind && p.2.2

theorem wellFormed_mk (s : Shape Node) :
    wellFormed ⟨s⟩ = s.slotted.all fun p => p.1.admits p.2.kind && p.2.wellFormed := by
  rw [wellFormed, para_mk, Shape.slotted_map, List.all_map]
  rfl

theorem wellFormed_mk_iff {s : Shape Node} :
    wellFormed ⟨s⟩ = true ↔
      ∀ p ∈ s.slotted, p.1.admits p.2.kind = true ∧ p.2.wellFormed = true := by
  simp only [wellFormed_mk, List.all_eq_true, Bool.and_eq_true]

theorem wellFormed_of_mem_children {s : Shape Node} (h : wellFormed ⟨s⟩ = true) {c : Node}
    (hc : c ∈ s.children) : c.wellFormed = true := by
  rw [← Shape.map_snd_slotted, List.mem_map] at hc
  obtain ⟨p, hp, rfl⟩ := hc
  exact (wellFormed_mk_iff.mp h p hp).2

theorem wellFormed_map {s : Shape Node} (h : wellFormed ⟨s⟩ = true) {g : Node → Node}
    (hk : ∀ n, (g n).kind = n.kind) (hg : ∀ c ∈ s.children, (g c).wellFormed = true) :
    wellFormed ⟨s.map g⟩ = true := by
  rw [wellFormed_mk_iff, Shape.slotted_map]
  intro q hq
  obtain ⟨p, hp, rfl⟩ := List.mem_map.mp hq
  refine ⟨?_, hg p.2 (Shape.mem_children_of_mem_slotted hp)⟩
  rw [hk]
  exact (wellFormed_mk_iff.mp h p hp).1

/-- The tree with every node replaced from the leaves up.  Each is seen after its children were
replaced, and its ancestors as they were. -/
def rewritten (f : Node → List Node → Node) (root : Node) : List Node → Node :=
  para (fun n s ancestors => f ⟨s.map fun c => c.2 (ancestors ++ [n])⟩ ancestors) root

theorem rewritten_mk (f : Node → List Node → Node) (s : Shape Node) (ancestors : List Node) :
    rewritten f ⟨s⟩ ancestors =
      f ⟨s.map fun c => c.rewritten f (ancestors ++ [⟨s⟩])⟩ ancestors := by
  rw [rewritten, para_mk, Shape.map_map]
  rfl

theorem kind_rewritten {f : Node → List Node → Node} (hf : ∀ n as, (f n as).kind = n.kind)
    (n : Node) (ancestors : List Node) : (n.rewritten f ancestors).kind = n.kind := by
  obtain ⟨s⟩ := n
  rw [rewritten_mk, hf]
  exact Shape.kind_map _ s

theorem wellFormed_rewritten {f : Node → List Node → Node}
    (hk : ∀ n as, (f n as).kind = n.kind)
    (hf : ∀ n as, n.wellFormed = true → (f n as).wellFormed = true) {n : Node}
    (h : n.wellFormed = true) (ancestors : List Node) :
    (n.rewritten f ancestors).wellFormed = true := by
  induction n using childrenInduction generalizing ancestors with
  | h s ih =>
    rw [rewritten_mk]
    apply hf
    apply wellFormed_map h
    · exact fun n => kind_rewritten hk n _
    · exact fun c hc => ih c hc (wellFormed_of_mem_children h hc) _

/-- The tree with every node replaced from the leaves up, whatever its ancestors. -/
def rewrite (f : Node → Node) : Node → Node := para fun _ s => f ⟨s.map Prod.snd⟩

theorem rewrite_mk (f : Node → Node) (s : Shape Node) :
    rewrite f ⟨s⟩ = f ⟨s.map (rewrite f)⟩ := by
  rw [rewrite, para_mk, Shape.map_map]
  rfl

theorem rewrite_of_no_children (f : Node → Node) {s : Shape Node} (h : s.children = []) :
    rewrite f ⟨s⟩ = f ⟨s⟩ := by
  rw [rewrite_mk, s.map_congr (g := id) (by simp [h]), s.map_id]

theorem rewritten_eq_rewrite (f : Node → Node) (n : Node) (ancestors : List Node) :
    n.rewritten (fun n _ => f n) ancestors = n.rewrite f := by
  induction n using childrenInduction generalizing ancestors with
  | h s ih =>
    rw [rewritten_mk, rewrite_mk, s.map_congr fun c hc => ih c hc _]

theorem rewrite_id (n : Node) : n.rewrite id = n := by
  induction n using childrenInduction with
  | h s ih =>
    rw [rewrite_mk, s.map_congr ih]
    exact congrArg Node.mk (s.map_id)

theorem kind_rewrite {f : Node → Node} (hf : ∀ n, (f n).kind = n.kind) (n : Node) :
    (n.rewrite f).kind = n.kind := by
  rw [← rewritten_eq_rewrite f n [], kind_rewritten fun n _ => hf n]

theorem wellFormed_rewrite {f : Node → Node} (hk : ∀ n, (f n).kind = n.kind)
    (hf : ∀ n, n.wellFormed = true → (f n).wellFormed = true) {n : Node}
    (h : n.wellFormed = true) : (n.rewrite f).wellFormed = true := by
  rw [← rewritten_eq_rewrite f n []]
  exact wellFormed_rewritten (fun n _ => hk n) (fun n _ => hf n) h []

/-- The transformation of a tree below given ancestors. -/
def transformBelow {m : Type → Type} [Monad m] (f : Node → List Node → m Node) (root : Node) :
    List Node → ExceptT Error m Node :=
  para (fun n s ancestors => do
    let s ← s.traverse fun slot c => do fit slot (← c.2 (ancestors ++ [n]))
    f (.mk s) ancestors) root

theorem transformBelow_mk {m : Type → Type} [Monad m] [LawfulMonad m]
    (f : Node → List Node → m Node) (s : Shape Node) (ancestors : List Node) :
    transformBelow f ⟨s⟩ ancestors = (do
      let t ← s.traverse fun slot c => do fit slot (← c.transformBelow f (ancestors ++ [⟨s⟩]))
      f ⟨t⟩ ancestors) := by
  rw [transformBelow, para_mk, Shape.traverse_map]
  rfl

theorem fit_of_admits {m : Type → Type} [Monad m] {slot : Slot} {n : Node}
    (h : slot.admits n.kind = true) : fit (m := m) slot n = pure n := by
  cases slot with
  | any => rfl
  | only k =>
    have hk : n.kind = k := (eq_of_beq h).symm
    simp [fit, hk]

theorem admits_of_fit_eq_ok {slot : Slot} {n n' : Node}
    (h : fit (m := Id) slot n = .ok n') : slot.admits n.kind = true ∧ n' = n := by
  cases slot with
  | any => exact ⟨rfl, (Except.ok.inj h).symm⟩
  | only k =>
    by_cases hk : n.kind = k
    · rw [fit, if_pos hk] at h
      exact ⟨by simp [Slot.admits, hk], (Except.ok.inj h).symm⟩
    · rw [fit, if_neg hk] at h
      cases h

/-- In a well-formed tree, replacing nodes by nodes of their kinds succeeds and is rewriting. -/
theorem transformBelow_eq_pure {m : Type → Type} [Monad m] [LawfulMonad m]
    {f : Node → List Node → m Node} {g : Node → List Node → Node}
    (hf : ∀ n as, f n as = pure (g n as)) (hg : ∀ n as, (g n as).kind = n.kind) (n : Node)
    (h : n.wellFormed = true) (ancestors : List Node) :
    n.transformBelow f ancestors = pure (n.rewritten g ancestors) := by
  induction n using childrenInduction generalizing ancestors with
  | h s ih =>
    have hs : (s.traverse fun slot c => do fit slot (← c.transformBelow f (ancestors ++ [⟨s⟩]))) =
        (pure (s.map fun c => c.rewritten g (ancestors ++ [⟨s⟩])) :
          ExceptT Error m (Shape Node)) := by
      apply Shape.traverse_eq_pure s
      intro p hp
      have hc := Shape.mem_children_of_mem_slotted hp
      have hw := wellFormed_mk_iff.mp h p hp
      rw [ih p.2 hc hw.2, pure_bind]
      apply fit_of_admits
      rw [kind_rewritten hg]
      exact hw.1
    rw [transformBelow_mk, hs, pure_bind, hf, rewritten_mk]
    simp

theorem transform_eq_ok {f : Node → List Node → Node} (hf : ∀ n as, (f n as).kind = n.kind)
    {n : Node} (h : n.wellFormed = true) : n.transform f = .ok (n.rewritten f []) :=
  transformBelow_eq_pure (m := Id) (fun _ _ => rfl) hf n h []

theorem transform_eq_rewrite {f : Node → Node} (hf : ∀ n, (f n).kind = n.kind) {n : Node}
    (h : n.wellFormed = true) : (n.transform fun n _ => f n) = .ok (n.rewrite f) := by
  rw [transform_eq_ok (fun n _ => hf n) h, rewritten_eq_rewrite]

/-- A transformation that keeps kinds succeeds in well-formed trees only. -/
theorem wellFormed_of_transformBelow_eq_ok {f : Node → List Node → Node}
    (hf : ∀ n as, (f n as).kind = n.kind) (n : Node) (ancestors : List Node) {n' : Node}
    (h : transformBelow (m := Id) f n ancestors = .ok n') :
    n.wellFormed = true := by
  induction n using childrenInduction generalizing ancestors n' with
  | h s ih =>
    rw [transformBelow_mk] at h
    rw [wellFormed_mk_iff]
    intro p hp
    cases ht : (s.traverse fun slot c => do
        fit slot (← c.transformBelow (m := Id) f (ancestors ++ [⟨s⟩])) :
          ExceptT Error Id (Shape Node)) with
    | error e => rw [ht] at h; cases h
    | ok t =>
      obtain ⟨b, hb⟩ := Shape.exists_of_traverse_eq_ok ht p hp
      cases hc : transformBelow (m := Id) f p.2 (ancestors ++ [⟨s⟩]) with
      | error e => rw [hc] at hb; cases hb
      | ok c =>
        rw [hc] at hb
        have hw := ih p.2 (Shape.mem_children_of_mem_slotted hp) _ hc
        have hr := transformBelow_eq_pure (m := Id) (f := f) (fun _ _ => rfl) hf p.2 hw
          (ancestors ++ [⟨s⟩])
        rw [hc] at hr
        have hk : c = p.2.rewritten f (ancestors ++ [⟨s⟩]) := Except.ok.inj hr
        have ha := (admits_of_fit_eq_ok hb).1
        rw [hk, kind_rewritten hf] at ha
        exact ⟨ha, hw⟩

end Node

end SqlTree
