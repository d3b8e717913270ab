import SqlTree.Proofs.Build.Lists
import SqlTree.Proofs.Render.Enclosing

/-!
# Modifiers of selects

The modifiers of a select are written class by class: distinct rows, row locks, what to do with rows
that are locked, raw fragments (`Layout.byClass`).  Only the order within a class counts, so the
modifiers of any selects of a tree can stand in another order across classes and the statement is
the same (`Node.Rearranged.statement_eq`).
-/

namespace SqlTree

namespace Layout

section Classes

/-- Lists with the same classes, each in the same order. -/
def SameClasses {α κ : Type} [BEq κ] (key : α → κ) (as bs : List α) : Prop :=
  ∀ k, (as.filter fun a => key a == k) = bs.filter fun b => key b == k

namespace SameClasses

variable {α κ : Type} [BEq κ] {key : α → κ}

theorem refl (as : List α) : SameClasses key as as := fun _ => rfl

theorem map {β : Type} {g : β → κ} {f : α → β} (hf : ∀ a, g (f a) = key a) {as bs : List α}
    (h : SameClasses key as bs) : SameClasses g (as.map f) (bs.map f) := by
  intro k
  simp only [List.filter_map, Function.comp_def, hf, h k]

theorem append {as bs as' bs' : List α} (h : SameClasses key as bs)
    (h' : SameClasses key as' bs') : SameClasses key (as ++ as') (bs ++ bs') := by
  intro k
  rw [List.filter_append, List.filter_append, h k, h' k]

/-- Neighbours of different classes can be swapped. -/
theorem swap [LawfulBEq κ] {a b : α} (h : key a ≠ key b) (as : List α) :
    SameClasses key (a :: b :: as) (b :: a :: as) := by
  intro k
  by_cases ha : key a = k
  · have hb : (key b == k) = false := beq_eq_false_iff_ne.mpr (ha ▸ h.symm)
    simp only [List.filter_cons, hb, Bool.false_eq_true, if_false]
  · have ha : (key a == k) = false := beq_eq_false_iff_ne.mpr ha
    simp only [List.filter_cons, ha, Bool.false_eq_true, if_false]

end SameClasses

variable {α : Type} (priority : α → Nat)

/-- A list class by class, each class in its own order. -/
def byClass (as : List α) : List α :=
  [0, 1, 2, 3].flatMap fun k => as.filter fun a => priority a == k

variable {priority}

theorem SameClasses.byClass_eq {as bs : List α} (h : SameClasses priority as bs) :
    byClass priority as = byClass priority bs := by
  simp only [byClass, h _]

theorem byClass_map {β : Type} {other : β → Nat} {f : α → β} (hf : ∀ a, other (f a) = priority a)
    (as : List α) : byClass other (as.map f) = (byClass priority as).map f := by
  simp [byClass, List.filter_map, Function.comp_def, hf]

theorem pairwise_byClass (as : List α) :
    (byClass priority as).Pairwise fun a b => priority a ≤ priority b := by
  have hclass : ∀ {k a}, a ∈ (as.filter fun a => priority a == k) → priority a = k :=
    fun h => beq_iff_eq.mp (List.mem_filter.mp h).2
  rw [byClass, List.pairwise_flatMap]
  constructor
  · intro k _
    refine List.pairwise_iff_forall_sublist.mpr fun {a b} h => ?_
    have hmem := h.subset
    rw [hclass (hmem List.mem_cons_self), hclass (hmem (List.mem_cons_of_mem a List.mem_cons_self))]
  · refine List.Pairwise.imp (R := (· < ·)) (fun {j k} hjk a ha b hb => ?_) (by decide)
    rw [hclass ha, hclass hb]
    exact Nat.le_of_lt hjk

theorem filter_flatMap_filter {ks : List Nat} (hks : ks.Nodup) (as : List α) (k : Nat) :
    ((ks.flatMap fun j => as.filter fun a => priority a == j).filter fun a => priority a == k) =
      if k ∈ ks then as.filter fun a => priority a == k else [] := by
  induction ks with
  | nil => rfl
  | cons j ks ih =>
    obtain ⟨hj, hks⟩ := List.nodup_cons.mp hks
    rw [List.flatMap_cons, List.filter_append, ih hks, List.filter_filter]
    by_cases h : k = j
    · subst h
      simp only [Bool.and_self, hj, if_false, List.append_nil, List.mem_cons_self, if_true]
    · have hnone : ∀ a, (priority a == k && priority a == j) = false := by
        intro a
        rw [Bool.and_eq_false_iff, beq_eq_false_iff_ne, beq_eq_false_iff_ne]
        omega
      simp only [hnone, List.filter_false, List.nil_append, List.mem_cons, h, false_or]

theorem perm_flatMap_filter {ks : List Nat} (hks : ks.Nodup) (as : List α) :
    (ks.flatMap fun j => as.filter fun a => priority a == j).Perm
      (as.filter fun a => decide (priority a ∈ ks)) := by
  induction ks with
  | nil => simp
  | cons j ks ih =>
    obtain ⟨hj, hks⟩ := List.nodup_cons.mp hks
    have hsplit := List.filter_append_perm (fun a => priority a == j)
      (as.filter fun a => decide (priority a ∈ j :: ks))
    have hfirst : ∀ a, (priority a == j && decide (priority a ∈ j :: ks)) = (priority a == j) := by
      intro a
      by_cases h : priority a = j <;> simp [h]
    have hrest : ∀ a, ((!priority a == j) && decide (priority a ∈ j :: ks)) =
        decide (priority a ∈ ks) := by
      intro a
      by_cases h : priority a = j <;> simp [h, hj]
    simp only [List.filter_filter, hfirst, hrest] at hsplit
    rw [List.flatMap_cons]
    exact ((ih hks).append_left _).trans hsplit

variable (hlt : ∀ a, priority a < 4)
include hlt

theorem sameClasses_byClass (as : List α) : SameClasses priority (byClass priority as) as := by
  intro k
  rw [byClass, filter_flatMap_filter (by decide)]
  split
  case isTrue => rfl
  case isFalse hk =>
    refine (List.filter_eq_nil_iff.mpr fun a _ ha => hk ?_).symm
    have ha := beq_iff_eq.mp ha
    have hlt := hlt a
    simp only [List.mem_cons, List.not_mem_nil, or_false]
    omega

theorem perm_byClass (as : List α) : (byClass priority as).Perm as := by
  have hall : (as.filter fun a => decide (priority a ∈ [0, 1, 2, 3])) = as := by
    refine List.filter_eq_self.mpr fun a _ => decide_eq_true ?_
    have hlt := hlt a
    simp only [List.mem_cons, List.not_mem_nil, or_false]
    omega
  rw [byClass]
  exact (perm_flatMap_filter (by decide) as).trans (.of_eq hall)

theorem SameClasses.perm {as bs : List α} (h : SameClasses priority as bs) : as.Perm bs :=
  (perm_byClass hlt as).symm.trans (h.byClass_eq ▸ perm_byClass hlt bs)

end Classes

theorem modifierPriority_lt (n : Node) : modifierPriority n < 4 := by
  unfold modifierPriority
  split
  case h_1 m _ _ => cases m <;> decide
  case h_2 => decide

/-- Modifiers are written in the same pieces class by class. -/
theorem modifiers_byClass {F : Node → Part} (hF : ∀ n, (F n).1 = n) (ms : List Node) :
    modifiers ((byClass modifierPriority ms).map F) = modifiers (ms.map F) := by
  have hsame : SameClasses (fun p : Part => modifierPriority p.1)
      ((byClass modifierPriority ms).map F) (ms.map F) :=
    (sameClasses_byClass modifierPriority_lt ms).map fun m => by rw [hF]
  exact congrArg clauses hsame.byClass_eq

end Layout

namespace Select

/-- The select with other modifiers. -/
def withModifiers (p : Select Node) (front back : List Node) : Select Node :=
  { p with frontModifiers := front, endModifiers := back }

/-- The select with its modifiers class by class. -/
def sortModifiers (p : Select Node) : Select Node :=
  p.withModifiers (Layout.byClass Layout.modifierPriority p.frontModifiers)
    (Layout.byClass Layout.modifierPriority p.endModifiers)

theorem each_sortModifiers {g : Node → Node}
    (hg : ∀ n, Layout.modifierPriority (g n) = Layout.modifierPriority n) (p : Select Node) :
    p.sortModifiers.each g = (p.each g).sortModifiers := by
  simp only [each, sortModifiers, withModifiers, Layout.byClass_map hg]

section Paginating

variable (p : Select Node) (front back : List Node)

theorem limitAsFetch_withModifiers :
    (p.withModifiers front back).limitAsFetch = p.limitAsFetch.withModifiers front back := by
  have hrows : (p.withModifiers front back).limitRows? = p.limitRows? := rfl
  unfold limitAsFetch
  rw [hrows]
  cases p.limitRows? with
  | none => rfl
  | some rows => cases hp : p.fetch <;> simp [withModifiers, hp]

theorem limitAsTop_withModifiers :
    (p.withModifiers front back).limitAsTop = p.limitAsTop.withModifiers front back := by
  have hrows : (p.withModifiers front back).limitRows? = p.limitRows? := rfl
  unfold limitAsTop
  rw [hrows]
  cases p.limitRows? with
  | none => rfl
  | some rows => cases hp : p.top <;> simp [withModifiers, hp]

theorem ordered_withModifiers :
    (p.withModifiers front back).ordered = p.ordered.withModifiers front back := by
  unfold ordered
  cases hp : p.orderBy <;> simp [withModifiers, hp]

/-- Moving a limit does not look at modifiers. -/
theorem paginate_withModifiers (style : Pagination) :
    (p.withModifiers front back).paginate style = (p.paginate style).withModifiers front back := by
  cases style with
  | limitOffset => rfl
  | fetchNext => exact limitAsFetch_withModifiers p front back
  | topOrFetch =>
    have hoffset : (p.withModifiers front back).offset.isNone = p.offset.isNone := rfl
    simp only [paginate, hoffset]
    split
    · exact limitAsTop_withModifiers p front back
    · rw [limitAsFetch_withModifiers, ordered_withModifiers]

end Paginating

theorem frontModifiers_paginate (style : Pagination) (p : Select Node) :
    (p.paginate style).frontModifiers = p.frontModifiers := by
  have h := congrArg frontModifiers
    (paginate_withModifiers p p.frontModifiers p.endModifiers style)
  exact h

theorem endModifiers_paginate (style : Pagination) (p : Select Node) :
    (p.paginate style).endModifiers = p.endModifiers := by
  have h := congrArg endModifiers
    (paginate_withModifiers p p.frontModifiers p.endModifiers style)
  exact h

theorem paginate_sortModifiers (style : Pagination) (p : Select Node) :
    p.sortModifiers.paginate style = (p.paginate style).sortModifiers := by
  rw [sortModifiers, paginate_withModifiers, sortModifiers, frontModifiers_paginate,
    endModifiers_paginate]

end Select

namespace Node

/-- A select with its modifiers class by class; other nodes are left as they are. -/
def sortModifiers : Node → Node
  | ⟨.selectQuery p⟩ => ⟨.selectQuery p.sortModifiers⟩
  | n => n

theorem sortModifiers_eq_self {n : Node} (h : n.kind ≠ .selectQuery) : n.sortModifiers = n := by
  obtain ⟨s⟩ := n
  cases s with
  | selectQuery p => exact absurd rfl h
  | _ => rfl

theorem kind_sortModifiers (n : Node) : n.sortModifiers.kind = n.kind := by
  unfold sortModifiers
  split <;> rfl

theorem rewrite_sortModifiers_each {s : Shape Node} (h : s.kind ≠ .selectQuery) :
    rewrite sortModifiers ⟨s⟩ = ⟨s.each (rewrite sortModifiers)⟩ := by
  rw [rewrite_mk, ← Shape.map_eq_each]
  exact sortModifiers_eq_self fun hs => h ((Shape.kind_map _ s).symm.trans hs)

theorem rewrite_sortModifiers_select (p : Select Node) :
    rewrite sortModifiers ⟨.selectQuery p⟩ =
      ⟨.selectQuery (p.each (rewrite sortModifiers)).sortModifiers⟩ := by
  rw [rewrite_mk, Shape.map_eq_each]
  rfl

theorem alike_rewrite_sortModifiers (n : Node) : Layout.Alike (n.rewrite sortModifiers) n := by
  have h := alike_rewrite (g := id) (fun _ hs _ => sortModifiers_eq_self hs) (fun _ _ _ => rfl)
    kind_sortModifiers (fun _ => rfl) n
  rwa [rewrite_id] at h

theorem modifierPriority_rewrite_adapt (d : Dialect) (n : Node) :
    Layout.modifierPriority (n.rewrite d.adapt) = Layout.modifierPriority n := by
  have h := alike_rewrite (g := id) (fun _ => d.adapt_eq_self) (fun _ _ _ => rfl) d.kind_adapt
    (fun _ => rfl) n
  rw [rewrite_id] at h
  exact h.modifierPriority

section Pieces

variable (d : Dialect) (n : Node) (parent : Option Kind)

theorem piecesIn_sortModifiers : n.sortModifiers.piecesIn d parent = n.piecesIn d parent := by
  by_cases h : n.kind = .selectQuery
  · obtain ⟨s⟩ := n
    cases s with
    | selectQuery p =>
      have hmodifiers := Layout.modifiers_byClass
        (F := fun c : Node => (c, c.piecesIn d (some .selectQuery))) fun _ => rfl
      rw [sortModifiers, piecesIn_mk, piecesIn_mk, Shape.map_eq_each, Shape.map_eq_each]
      simp only [Shape.each, Select.each, Layout.pieces, Layout.select, Select.sortModifiers,
        Select.withModifiers, Shape.kind, hmodifiers]
    | _ => cases h
  · rw [sortModifiers_eq_self h]

/-- A tree is written in the same pieces with all modifiers class by class. -/
theorem piecesIn_rewrite_sortModifiers :
    (n.rewrite sortModifiers).piecesIn d parent = n.piecesIn d parent := by
  have heq : Layout.Congruence d d fun ps qs => ps = qs :=
    .ofWords rfl (fun h h' => by rw [h, h']) (fun _ => rfl) (fun _ => rfl) (fun _ => rfl)
  induction n using childrenInduction generalizing parent with
  | h s ih =>
    rw [rewrite_mk, piecesIn_sortModifiers, piecesIn_mk, piecesIn_mk, Shape.map_map, Shape.kind_map]
    apply heq.pieces
    · exact fun c hc => ih c hc _
    · exact fun c _ => alike_rewrite_sortModifiers c
    · intro hleaf
      rw [Shape.map_eq_each, Shape.map_eq_each]
      obtain ⟨name, rfl⟩ | ⟨v, immediate, rfl⟩ | ⟨vs, rfl⟩ := Layout.eq_of_isLeaf hleaf
      all_goals rfl
    · exact fun j hj => congrArg List.tail (ih j (Shape.mem_children_of_mem_slotted hj) _)

end Pieces

theorem keepsLimits_rewrite_sortModifiers : KeepsLimits (rewrite sortModifiers) where
  kind := kind_rewrite kind_sortModifiers
  limit _ := rewrite_sortModifiers_each nofun
  fetch _ _ := rewrite_sortModifiers_each nofun
  top _ _ := rewrite_sortModifiers_each nofun
  anyOrder := rfl

theorem paginateNode_rewrite_sortModifiers (style : Pagination) (bits : Bool) (n : Node) :
    paginateNode style bits (n.rewrite sortModifiers) =
      (paginateNode style bits n).rewrite sortModifiers := by
  have hk := kind_rewrite kind_sortModifiers n
  by_cases hs : n.kind = .selectQuery
  · obtain ⟨s⟩ := n
    cases s with
    | selectQuery p =>
      show paginateNode style bits (rewrite sortModifiers ⟨.selectQuery p⟩) =
        rewrite sortModifiers ⟨.selectQuery (p.paginate style)⟩
      rw [rewrite_sortModifiers_select, rewrite_sortModifiers_select, paginateNode,
        Select.paginate_sortModifiers, Select.paginate_each keepsLimits_rewrite_sortModifiers]
    | _ => cases hs
  by_cases hb : n.kind = .binaryOperation
  · obtain ⟨s⟩ := n
    cases s with
    | binaryOperation l op r =>
      have heach := rewrite_sortModifiers_each (s := .binaryOperation l op r) hs
      cases bits with
      | true =>
        have hbit := bitComparison_rewrite kind_sortModifiers (fun _ _ _ => rfl) (fun _ => rfl)
          (fun _ i => ⟨i, rfl⟩) (fun _ => rfl) l op r
        rw [heach] at hbit ⊢
        exact hbit
      | false =>
        rw [heach]
        exact heach.symm
    | _ => cases hb
  · rw [paginateNode_eq_self _ _ hs hb,
      paginateNode_eq_self _ _ (by rwa [hk]) (by rwa [hk])]

/-- The modifiers of an adapted select are its own, adapted. -/
theorem exists_rewrite_adapt_select (d : Dialect) (p : Select Node) :
    ∃ q : Select Node, rewrite d.adapt ⟨.selectQuery p⟩ = ⟨.selectQuery q⟩ ∧
      q.frontModifiers = p.frontModifiers.map (rewrite d.adapt) ∧
      q.endModifiers = p.endModifiers.map (rewrite d.adapt) := by
  rw [rewrite_mk, Shape.map_eq_each]
  have hpaginate := fun style => And.intro
    (Select.frontModifiers_paginate style (p.each (rewrite d.adapt)))
    (Select.endModifiers_paginate style (p.each (rewrite d.adapt)))
  cases d with
  | mssql => exact ⟨_, rfl, hpaginate _⟩
  | oracle => exact ⟨_, rfl, hpaginate _⟩
  | _ => exact ⟨_, rfl, rfl, rfl⟩

theorem adapt_rewrite_sortModifiers (d : Dialect) (n : Node) :
    d.adapt (n.rewrite sortModifiers) = (d.adapt n).rewrite sortModifiers := by
  cases d with
  | mssql => exact paginateNode_rewrite_sortModifiers _ _ n
  | oracle => exact paginateNode_rewrite_sortModifiers _ _ n
  | _ => rfl

theorem rewrite_adapt_sortModifiers_mk (d : Dialect) (s : Shape Node) :
    (sortModifiers ⟨s⟩).rewrite d.adapt = d.adapt (sortModifiers ⟨s.map (rewrite d.adapt)⟩) := by
  by_cases h : s.kind = .selectQuery
  · cases s with
    | selectQuery p =>
      have heach := Select.each_sortModifiers (modifierPriority_rewrite_adapt d) p
      rw [sortModifiers, rewrite_mk, Shape.map_eq_each, Shape.map_eq_each, Shape.each, heach]
      rfl
    | _ => cases h
  · have hmap : kind ⟨s.map (rewrite d.adapt)⟩ ≠ .selectQuery := fun hs =>
      h ((Shape.kind_map _ s).symm.trans hs)
    rw [sortModifiers_eq_self (n := ⟨s⟩) h, rewrite_mk, sortModifiers_eq_self hmap]

/-- Modifiers can be put class by class before or after a tree is adapted to a dialect. -/
theorem rewrite_adapt_sortModifiers (d : Dialect) (n : Node) :
    (n.rewrite sortModifiers).rewrite d.adapt = (n.rewrite d.adapt).rewrite sortModifiers := by
  induction n using childrenInduction with
  | h s ih =>
    have hmap : s.map (rewrite d.adapt ∘ rewrite sortModifiers) =
        s.map (rewrite sortModifiers ∘ rewrite d.adapt) := s.map_congr ih
    calc (rewrite sortModifiers ⟨s⟩).rewrite d.adapt
        = d.adapt (sortModifiers ⟨(s.map (rewrite d.adapt)).map (rewrite sortModifiers)⟩) := by
          rw [rewrite_mk, rewrite_adapt_sortModifiers_mk, Shape.map_map, hmap, Shape.map_map]
      _ = (d.adapt ⟨s.map (rewrite d.adapt)⟩).rewrite sortModifiers := by
          rw [← rewrite_mk sortModifiers, adapt_rewrite_sortModifiers]
      _ = (rewrite d.adapt ⟨s⟩).rewrite sortModifiers := by rw [rewrite_mk d.adapt]

/-- A tree and the same one with the modifiers of some of its selects in another order, where each
class keeps its own. -/
inductive Rearranged : Node → Node → Prop
  | modifiers (p : Select Node) {front back : List Node}
    (hfront : Layout.SameClasses Layout.modifierPriority p.frontModifiers front)
    (hback : Layout.SameClasses Layout.modifierPriority p.endModifiers back) :
    Rearranged ⟨.selectQuery p⟩ ⟨.selectQuery (p.withModifiers front back)⟩
  | node (u : Shape (Node × Node)) (h : ∀ c ∈ u.children, Rearranged c.1 c.2) :
    Rearranged ⟨u.map Prod.fst⟩ ⟨u.map Prod.snd⟩
  | trans {l m n : Node} (h : Rearranged l m) (h' : Rearranged m n) : Rearranged l n

/-- The children of a select are its modifiers and others that do not depend on them. -/
theorem exists_slotted_withModifiers (p : Select Node) :
    ∃ before between, ∀ front back, (Shape.selectQuery (p.withModifiers front back)).slotted =
      before ++ (front.map (Prod.mk (.only .selectModifier)) ++ (between ++
        back.map (Prod.mk (.only .selectModifier)))) := by
  refine ⟨(p.fields.take 2).flatMap fun f => f.2.slotted,
    ((p.fields.drop 3).take 13).flatMap fun f => f.2.slotted, fun front back => ?_⟩
  simp only [Shape.slotted, Shape.fields, Select.fields, Select.withModifiers, List.take,
    List.drop, List.flatMap_cons, List.flatMap_nil, List.append_assoc, List.append_nil,
    Field.slotted]

theorem wellFormed_withModifiers_iff {p : Select Node} {front back : List Node} :
    wellFormed ⟨.selectQuery (p.withModifiers front back)⟩ = true ↔
      wellFormed ⟨.selectQuery (p.withModifiers [] [])⟩ = true ∧
        ∀ m ∈ front ++ back, m.kind = .selectModifier ∧ m.wellFormed = true := by
  obtain ⟨before, between, hslotted⟩ := exists_slotted_withModifiers p
  have hmodifier : ∀ m : Node, Slot.admits (.only .selectModifier) m.kind = true ↔
      m.kind = .selectModifier := fun m => beq_iff_eq.trans eq_comm
  simp only [wellFormed_mk_iff, hslotted, List.map_nil, List.nil_append, List.append_nil,
    List.forall_mem_append, List.forall_mem_map, hmodifier]
  exact ⟨fun ⟨hbefore, hfront, hbetween, hback⟩ => ⟨⟨hbefore, hbetween⟩, hfront, hback⟩,
    fun ⟨⟨hbefore, hbetween⟩, hfront, hback⟩ => ⟨hbefore, hfront, hbetween, hback⟩⟩

namespace Rearranged

variable {m n : Node} (h : Rearranged m n)
include h

theorem kind_eq : n.kind = m.kind := by
  induction h with
  | modifiers p _ _ => rfl
  | node u h ih => exact (Shape.kind_map _ u).trans (Shape.kind_map _ u).symm
  | trans _ _ ih ih' => exact ih'.trans ih

/-- The two trees are one when all modifiers are put class by class. -/
theorem rewrite_sortModifiers : n.rewrite sortModifiers = m.rewrite sortModifiers := by
  induction h with
  | modifiers p hfront hback =>
    have hg := fun n => (alike_rewrite_sortModifiers n).modifierPriority
    rw [rewrite_sortModifiers_select, rewrite_sortModifiers_select]
    simp only [Select.sortModifiers, Select.withModifiers, Select.each,
      (hfront.map hg).byClass_eq, (hback.map hg).byClass_eq]
  | node u h ih =>
    rw [rewrite_mk, rewrite_mk, Shape.map_map, Shape.map_map]
    exact congrArg (fun s => sortModifiers ⟨s⟩) (u.map_congr ih)
  | trans _ _ ih ih' => exact ih'.trans ih

theorem wellFormed (hm : m.wellFormed = true) : n.wellFormed = true := by
  induction h with
  | modifiers p hfront hback =>
    obtain ⟨hrest, hmodifiers⟩ := wellFormed_withModifiers_iff.mp hm
    have hperm := (hfront.perm Layout.modifierPriority_lt).append
      (hback.perm Layout.modifierPriority_lt)
    exact wellFormed_withModifiers_iff.mpr
      ⟨hrest, fun m hm => hmodifiers m (hperm.mem_iff.mpr hm)⟩
  | node u h ih =>
    rw [wellFormed_mk_iff, Shape.slotted_map] at hm ⊢
    intro q hq
    obtain ⟨p, hp, rfl⟩ := List.mem_map.mp hq
    have hc := Shape.mem_children_of_mem_slotted hp
    obtain ⟨hadmits, hwell⟩ := hm _ (List.mem_map_of_mem hp)
    refine ⟨?_, ih p.2 hc hwell⟩
    rw [(h p.2 hc).kind_eq]
    exact hadmits
  | trans _ _ ih ih' => exact ih' (ih hm)

/-- Another order of modifiers changes neither the statement nor its failure. -/
theorem statement_eq (d : Dialect) (hm : m.wellFormed = true) : n.statement d = m.statement d := by
  have hpieces : ∀ t : Node,
      (t.rewrite d.adapt).pieces d = ((t.rewrite sortModifiers).rewrite d.adapt).pieces d := by
    intro t
    rw [rewrite_adapt_sortModifiers]
    exact (piecesIn_rewrite_sortModifiers d _ none).symm
  rw [Node.statement_eq d hm, Node.statement_eq d (h.wellFormed hm), hpieces n, hpieces m,
    h.rewrite_sortModifiers]

end Rearranged

/-- Modifiers as a select writes them: class by class, each after a blank. -/
def modifierPieces (d : Dialect) (ms : List Node) : List Piece :=
  (Layout.byClass Layout.modifierPriority ms).flatMap fun m =>
    .text " " :: m.piecesIn d (some .selectQuery)

/-- A select is written with its modifiers at two places, and what is around them does not depend on
them. -/
theorem exists_pieces_withModifiers (d : Dialect) (p : Select Node) :
    ∃ before between, ∀ front back, pieces d ⟨.selectQuery (p.withModifiers front back)⟩ =
      before ++ modifierPieces d front ++ between ++ modifierPieces d back := by
  let part (c : Node) : Layout.Part := (c, c.piecesIn d (some .selectQuery))
  have hmodifiers : ∀ ms : List Node, Layout.modifiers (ms.map part) = modifierPieces d ms := by
    intro ms
    rw [Layout.modifiers, Layout.byPriority_map (fun _ => rfl), Layout.clauses, List.flatMap_map]
    rfl
  let q := p.each part
  refine ⟨Layout.leading q.explain ++ Layout.leading q.withClause ++ Layout.sql "select" ++
      if q.distinctOn.isEmpty then [] else Layout.sql " distinct on " ++ Layout.listed q.distinctOn,
    Layout.clause q.top ++
      (if q.selections.isEmpty then [] else Layout.sql " " ++ Layout.commas q.selections) ++
      Layout.clause q.fromClause ++ Layout.clauses q.joins ++ Layout.clause q.whereClause ++
      Layout.clause q.groupBy ++ Layout.clause q.having ++ Layout.clauses q.setOperations ++
      Layout.clause q.orderBy ++ Layout.clause q.limit ++ Layout.clause q.offset ++
      Layout.clause q.fetch, fun front back => ?_⟩
  rw [← hmodifiers, ← hmodifiers, pieces, piecesIn_mk, Shape.map_eq_each]
  show Layout.select ((p.withModifiers front back).each part) = _
  simp only [Layout.select, Select.each, Select.withModifiers, List.append_assoc, q]
  rfl

/-- `Stands d m n parent f`: the tree `n` holds `m`, below `parent` unless it is `m` itself, and
with the pieces `ps` for `m` the pieces of `n` are `f ps`. -/
inductive Stands (d : Dialect) (m : Node) :
    Node → Option Kind → (List Piece → List Piece) → Prop
  | root : Stands d m m none id
  | below {n : Node} {k : Kind} {f : List Piece → List Piece} (h : Within d k m n none f) :
    Stands d m n (some k) f

namespace Stands

variable {d : Dialect} {m n : Node} {parent : Option Kind} {f : List Piece → List Piece}
  (h : Stands d m n parent f)
include h

theorem pieces_eq : n.pieces d = f (m.piecesIn d parent) := by
  cases h with
  | root => rfl
  | below h => exact h.piecesIn_eq

/-- Around a select stands a template. -/
theorem exists_template (hn : n.wellFormed = true) (hm : m.kind = .selectQuery) :
    ∃ T : Template, ∀ ps, f ps = T.fill ps := by
  have hgap : ∀ ps, id ps = Template.fill [none] ps := fun ps => (List.append_nil ps).symm
  have hlocal : Template.Local fun _ => True :=
    ⟨fun _ => trivial, fun _ _ => trivial, fun _ => trivial⟩
  cases h with
  | root => exact ⟨[none], hgap⟩
  | below h =>
    have hself : Template.Frames (fun _ => True) m.kind id :=
      ⟨[none], hgap, trivial, fun hk => nomatch hm.symm.trans hk⟩
    obtain ⟨T, hT, -⟩ := h.frames hlocal id
      (fun t parent _ hw => Layout.frames_around hlocal d parent hw hself) hn
    exact ⟨T, hT⟩

end Stands

end Node

end SqlTree
