import SqlTree.Proofs.Tree.Guarding
import SqlTree.Proofs.Tree.Walking
import Mathlib.Data.List.Infix
import Mathlib.Data.List.Nodup
import Mathlib.Data.List.Perm.Basic

/-!
# Addresses in trees

A node of a tree stands at an address, the numbers of the children that lead to it from the root, so
equal nodes at several places are told apart.  A visit and a transformation that changes nothing
both meet every address once, the visit a node before the nodes below it and the transformation
after them, and both go from left to right (`Node.visit_transform_addresses`).
-/

namespace SqlTree

/-! ## Order of addresses -/

namespace Address

/-- An address on the way to another one. -/
def Above (p q : List Nat) : Prop := p <+: q ∧ p ≠ q

/-- Two addresses whose ways part, the first one to an earlier child. -/
def LeftOf (p q : List Nat) : Prop :=
  ∃ r i j p' q', i < j ∧ p = r ++ i :: p' ∧ q = r ++ j :: q'

section Order

variable {p q : List Nat}

theorem Above.cons (i : Nat) (h : Above p q) : Above (i :: p) (i :: q) :=
  ⟨(List.prefix_cons_inj i).mpr h.1, fun he => h.2 (List.cons.inj he).2⟩

theorem above_nil_cons (i : Nat) (p : List Nat) : Above [] (i :: p) :=
  ⟨List.nil_prefix, nofun⟩

theorem LeftOf.cons (i : Nat) (h : LeftOf p q) : LeftOf (i :: p) (i :: q) := by
  obtain ⟨r, j, k, p', q', hjk, rfl, rfl⟩ := h
  exact ⟨i :: r, j, k, p', q', hjk, rfl, rfl⟩

theorem leftOf_cons_of_lt {i j : Nat} (h : i < j) (p q : List Nat) : LeftOf (i :: p) (j :: q) :=
  ⟨[], i, j, p, q, h, rfl, rfl⟩

theorem not_leftOf_self (p : List Nat) : ¬ LeftOf p p := by
  rintro ⟨r, i, j, p', q', hij, hp, hq⟩
  have heq := List.append_cancel_left (hp.symm.trans hq)
  exact hij.ne (List.cons.inj heq).1

/-- What stands above or to the left comes first. -/
def Before (p q : List Nat) : Prop := Above p q ∨ LeftOf p q

/-- What stands below or to the left comes first. -/
def After (p q : List Nat) : Prop := Above q p ∨ LeftOf p q

theorem Before.ne (h : Before p q) : p ≠ q := by
  rintro rfl
  exact h.elim (fun h => h.2 rfl) (not_leftOf_self p)

theorem After.ne (h : After p q) : p ≠ q := by
  rintro rfl
  exact h.elim (fun h => h.2 rfl) (not_leftOf_self p)

end Order

end Address

namespace Node

open Address

/-- The node at an address. -/
def at? : Node → List Nat → Option Node
  | n, [] => some n
  | n, i :: p => n.children[i]?.bind fun c => c.at? p

/-- The nodes on the way to an address, the root first. -/
def above (n : Node) (p : List Nat) : List Node := p.inits.dropLast.filterMap n.at?

/-- The node at an address with the nodes on the way to it. -/
def occurrence? (n : Node) (p : List Nat) : Option (Node × List Node) :=
  (n.at? p).map fun m => (m, n.above p)

@[simp] theorem at?_nil (n : Node) : n.at? [] = some n := by
  rw [at?]

theorem at?_cons (n : Node) (i : Nat) (p : List Nat) :
    n.at? (i :: p) = n.children[i]?.bind fun c => c.at? p := by
  rw [at?]

@[simp] theorem above_nil (n : Node) : n.above [] = [] := rfl

theorem above_cons {n c : Node} {i : Nat} (hc : n.children[i]? = some c) (p : List Nat) :
    n.above (i :: p) = n :: c.above p := by
  have hat : (fun q => n.at? (i :: q)) = c.at? := by
    funext q
    rw [at?_cons, hc, Option.bind_some]
  -- The first way is the empty one, to `n` itself; all others lead through `c`.
  have hne : p.inits.map (i :: ·) ≠ [] :=
    mt List.map_eq_nil_iff.mp (List.ne_nil_of_mem ((List.mem_inits _ _).mpr List.nil_prefix))
  rw [above, List.inits_cons, List.dropLast_cons_of_ne_nil hne, ← List.map_dropLast,
    List.filterMap_cons_some (at?_nil n), List.filterMap_map]
  exact congrArg (fun g => n :: p.inits.dropLast.filterMap g) hat

/-! ## Lists of addresses -/

section Below

variable {α : Type}

/-- The addresses below a node, from those below each of its children. -/
def addressesBelow (cs : List α) (addresses : α → List (List Nat)) : List (List Nat) :=
  cs.zipIdx.flatMap fun c => (addresses c.1).map (c.2 :: ·)

variable {cs : List α} {addresses : α → List (List Nat)}

theorem mem_addressesBelow {p : List Nat} : p ∈ addressesBelow cs addresses ↔
    ∃ i q c, p = i :: q ∧ cs[i]? = some c ∧ q ∈ addresses c := by
  simp only [addressesBelow, List.mem_flatMap, List.mem_map]
  constructor
  · rintro ⟨⟨c, i⟩, hc, q, hq, rfl⟩
    exact ⟨i, q, c, rfl, List.mem_zipIdx_iff_getElem?.mp hc, hq⟩
  · rintro ⟨i, q, c, rfl, hc, hq⟩
    exact ⟨(c, i), List.mem_zipIdx_iff_getElem?.mpr hc, q, hq, rfl⟩

theorem pairwise_snd_zipIdx (cs : List α) (k : Nat) :
    (cs.zipIdx k).Pairwise fun a b => a.2 < b.2 := by
  induction cs generalizing k with
  | nil => exact .nil
  | cons c cs ih =>
    exact List.pairwise_cons.mpr ⟨fun b hb => List.le_snd_of_mem_zipIdx hb, ih (k + 1)⟩

/-- An order that goes from left to right is kept below a node. -/
theorem pairwise_addressesBelow {R : List Nat → List Nat → Prop}
    (hcons : ∀ i p q, R p q → R (i :: p) (i :: q))
    (hleft : ∀ p q, LeftOf p q → R p q)
    (h : ∀ c ∈ cs, (addresses c).Pairwise R) : (addressesBelow cs addresses).Pairwise R := by
  rw [addressesBelow, List.pairwise_flatMap]
  refine ⟨fun c hc => ?_, (pairwise_snd_zipIdx cs 0).imp fun hij => ?_⟩
  · rw [List.pairwise_map]
    exact (h c.1 (List.fst_mem_of_mem_zipIdx hc)).imp fun hpq => hcons c.2 _ _ hpq
  · rintro _ hp _ hq
    obtain ⟨p, -, rfl⟩ := List.mem_map.mp hp
    obtain ⟨q, -, rfl⟩ := List.mem_map.mp hq
    exact hleft _ _ (leftOf_cons_of_lt hij p q)

end Below

/-- All addresses, each before those below it. -/
def preorder : Node → List (List Nat) :=
  para fun _ s => [] :: addressesBelow s.children Prod.snd

/-- All addresses, each after those below it. -/
def postorder : Node → List (List Nat) :=
  para fun _ s => addressesBelow s.children Prod.snd ++ [[]]

theorem addressesBelow_map {α β : Type} (g : α → β) (cs : List α)
    (addresses : β → List (List Nat)) :
    addressesBelow (cs.map g) addresses = addressesBelow cs fun c => addresses (g c) := by
  rw [addressesBelow, List.zipIdx_map, List.flatMap_map]
  rfl

theorem preorder_mk (s : Shape Node) :
    preorder ⟨s⟩ = [] :: addressesBelow s.children preorder := by
  rw [preorder, para_mk, Shape.children_map, addressesBelow_map]

theorem postorder_mk (s : Shape Node) :
    postorder ⟨s⟩ = addressesBelow s.children postorder ++ [[]] := by
  rw [postorder, para_mk, Shape.children_map, addressesBelow_map]

theorem isSome_at?_cons {n : Node} {i : Nat} {p : List Nat} : (n.at? (i :: p)).isSome = true ↔
    ∃ c, n.children[i]? = some c ∧ (c.at? p).isSome = true := by
  rw [at?_cons]
  cases n.children[i]? with
  | none => simp
  | some c => simp

/-- A list with the root and what it has below each child has every address. -/
theorem mem_iff_isSome_at? {addresses : Node → List (List Nat)}
    (h : ∀ s p, p ∈ addresses ⟨s⟩ ↔ p = [] ∨ p ∈ addressesBelow s.children addresses)
    (n : Node) (p : List Nat) : p ∈ addresses n ↔ (n.at? p).isSome = true := by
  induction n using childrenInduction generalizing p with
  | h s ih =>
    rw [h, mem_addressesBelow]
    cases p with
    | nil => simp
    | cons i p =>
      rw [isSome_at?_cons]
      constructor
      · rintro (hnil | ⟨j, q, c, heq, hc, hq⟩)
        · cases hnil
        · cases heq
          exact ⟨c, hc, (ih c (List.mem_of_getElem? hc) p).mp hq⟩
      · rintro ⟨c, hc, hp⟩
        exact .inr ⟨i, p, c, rfl, hc, (ih c (List.mem_of_getElem? hc) p).mpr hp⟩

theorem mem_preorder {n : Node} {p : List Nat} : p ∈ n.preorder ↔ (n.at? p).isSome = true := by
  refine mem_iff_isSome_at? (fun s p => ?_) n p
  rw [preorder_mk, List.mem_cons]

theorem mem_postorder {n : Node} {p : List Nat} : p ∈ n.postorder ↔ (n.at? p).isSome = true := by
  refine mem_iff_isSome_at? (fun s p => ?_) n p
  rw [postorder_mk, List.mem_append, List.mem_singleton, or_comm]

theorem exists_cons_of_mem_addressesBelow {α : Type} {cs : List α}
    {addresses : α → List (List Nat)} {p : List Nat} (h : p ∈ addressesBelow cs addresses) :
    ∃ i q, p = i :: q := by
  obtain ⟨i, q, -, rfl, -⟩ := mem_addressesBelow.mp h
  exact ⟨i, q, rfl⟩

theorem pairwise_preorder (n : Node) : n.preorder.Pairwise Before := by
  induction n using childrenInduction with
  | h s ih =>
    rw [preorder_mk, List.pairwise_cons]
    constructor
    · intro p hp
      obtain ⟨i, q, rfl⟩ := exists_cons_of_mem_addressesBelow hp
      exact .inl (above_nil_cons i q)
    · exact pairwise_addressesBelow (fun i p q => .imp (.cons i) (.cons i)) (fun _ _ => .inr) ih

theorem pairwise_postorder (n : Node) : n.postorder.Pairwise After := by
  induction n using childrenInduction with
  | h s ih =>
    rw [postorder_mk, List.pairwise_append]
    refine ⟨?_, List.pairwise_singleton _ _, fun p hp q hq => ?_⟩
    · exact pairwise_addressesBelow (fun i p q => .imp (.cons i) (.cons i)) (fun _ _ => .inr) ih
    · obtain rfl := List.mem_singleton.mp hq
      obtain ⟨i, q, rfl⟩ := exists_cons_of_mem_addressesBelow hp
      exact .inl (above_nil_cons i q)

theorem nodup_preorder (n : Node) : n.preorder.Nodup := (pairwise_preorder n).imp Before.ne

theorem nodup_postorder (n : Node) : n.postorder.Nodup := (pairwise_postorder n).imp After.ne

theorem postorder_perm_preorder (n : Node) : n.postorder.Perm n.preorder :=
  (List.perm_ext_iff_of_nodup n.nodup_postorder n.nodup_preorder).mpr fun _ =>
    mem_postorder.trans mem_preorder.symm

/-! ## What visits and transformations meet -/

/-- The node at an address, with the given nodes and those on the way to it as ancestors. -/
def occurrenceBelow? (n : Node) (ancestors : List Node) (p : List Nat) :
    Option (Node × List Node) :=
  (n.at? p).map fun m => (m, ancestors ++ n.above p)

theorem occurrenceBelow?_nil (n : Node) (ancestors : List Node) :
    n.occurrenceBelow? ancestors [] = some (n, ancestors) := by
  simp [occurrenceBelow?]

theorem occurrenceBelow?_cons {n c : Node} {i : Nat} (hc : n.children[i]? = some c)
    (ancestors : List Node) (p : List Nat) :
    n.occurrenceBelow? ancestors (i :: p) = c.occurrenceBelow? (ancestors ++ [n]) p := by
  simp [occurrenceBelow?, at?_cons, hc, above_cons hc]

/-- What is met below a node is met below its children. -/
theorem map_occurrenceBelow? {s : Shape Node} {ancestors : List Node}
    {addresses : Node → List (List Nat)} {met : Node → List (Node × List Node)}
    (h : ∀ c ∈ s.children,
      (met c).map some = (addresses c).map (c.occurrenceBelow? (ancestors ++ [⟨s⟩]))) :
    (s.children.flatMap met).map some =
      (addressesBelow s.children addresses).map (occurrenceBelow? ⟨s⟩ ancestors) := by
  have hbelow : ∀ c ∈ s.children.zipIdx,
      ((addresses c.1).map (c.2 :: ·)).map (occurrenceBelow? ⟨s⟩ ancestors) =
        (met c.1).map some := by
    rintro ⟨c, i⟩ hc
    have hi := List.mem_zipIdx_iff_getElem?.mp hc
    rw [h c (List.fst_mem_of_mem_zipIdx hc), List.map_map]
    exact List.map_congr_left fun p _ => occurrenceBelow?_cons hi ancestors p
  rw [addressesBelow, List.map_flatMap, List.map_flatMap, List.flatMap_congr hbelow]
  conv_lhs => rw [← List.zipIdx_map_fst 0 s.children, List.flatMap_map]

theorem visitBelow_occurrences (n : Node) (ancestors : List Node) :
    (n.visitBelow ancestors).map some = n.preorder.map (n.occurrenceBelow? ancestors) := by
  induction n using childrenInduction generalizing ancestors with
  | h s ih =>
    rw [visitBelow_mk, preorder_mk, List.map_cons, List.map_cons, occurrenceBelow?_nil,
      map_occurrenceBelow? fun c hc => ih c hc _]

open Replacement

theorem subject_replacements (f : Node → List Node → Node) (n : Node) (slot : Slot)
    (ancestors : List Node) : (n.replacements f slot ancestors).map subject =
      (n.replacements f .any ancestors).map subject := by
  obtain ⟨s⟩ := n
  rw [replacements_mk, replacements_mk, List.map_append, List.map_append]
  rfl

theorem subject_replacements_mk (f : Node → List Node → Node) (s : Shape Node) (slot : Slot)
    (ancestors : List Node) : (replacements f ⟨s⟩ slot ancestors).map subject =
      (s.children.flatMap fun c => (c.replacements f .any (ancestors ++ [⟨s⟩])).map subject) ++
        [(⟨s.map fun c => c.rewritten f (ancestors ++ [⟨s⟩])⟩, ancestors)] := by
  rw [replacements_mk, List.map_append, List.map_flatMap, ← Shape.map_snd_slotted,
    List.flatMap_map]
  simp only [subject_replacements f _ (Prod.fst _)]
  rfl

theorem rewritten_unchanged (n : Node) (ancestors : List Node) :
    n.rewritten (fun m _ => m) ancestors = n :=
  (rewritten_eq_rewrite id n ancestors).trans n.rewrite_id

theorem replacements_occurrences (n : Node) (ancestors : List Node) :
    ((n.replacements (fun m _ => m) .any ancestors).map subject).map some =
      n.postorder.map (n.occurrenceBelow? ancestors) := by
  induction n using childrenInduction generalizing ancestors with
  | h s ih =>
    have hself : s.map (fun c => c.rewritten (fun m _ => m) (ancestors ++ [⟨s⟩])) = s :=
      (s.map_congr fun c _ => rewritten_unchanged c _).trans s.map_id
    rw [subject_replacements_mk, postorder_mk, List.map_append, List.map_append, hself,
      map_occurrenceBelow? fun c hc => ih c hc _]
    simp [occurrenceBelow?_nil]

/-- In a well-formed tree every node fits its own position. -/
theorem fault?_replacements_unchanged {n : Node} (hn : n.wellFormed = true) {slot : Slot}
    (hslot : slot.admits n.kind = true) (ancestors : List Node) :
    ∀ r ∈ n.replacements (fun m _ => m) slot ancestors, r.fault? = none := by
  induction n using childrenInduction generalizing slot ancestors with
  | h s ih =>
    rw [replacements_mk]
    refine List.forall_mem_append.mpr ⟨fun r hr => ?_, List.forall_mem_singleton.mpr ?_⟩
    · obtain ⟨p, hp, hr⟩ := List.mem_flatMap.mp hr
      obtain ⟨hkind, hw⟩ := wellFormed_mk_iff.mp hn p hp
      exact ih p.2 (Shape.mem_children_of_mem_slotted hp) hw hkind _ r hr
    · have hkind : slot.admits (s.map fun c => c.rewritten (fun m _ => m)
          (ancestors ++ [⟨s⟩])).kind = true := by
        rwa [Shape.kind_map]
      rw [fault?_eq_none_iff]
      rintro ⟨k, rfl, hk⟩
      exact hk (eq_of_beq hkind).symm

theorem occurrenceBelow?_root (n : Node) : n.occurrenceBelow? [] = n.occurrence? := by
  funext p
  simp [occurrenceBelow?, occurrence?]

/-- What was met are the nodes at all addresses, each once and with the nodes on the way to it, in
an order of the addresses. -/
def Meets (n : Node) (order : List Nat → List Nat → Prop) (met : List (Node × List Node)) : Prop :=
  ∃ ps : List (List Nat), met.map some = ps.map n.occurrence? ∧
    (∀ p, p ∈ ps ↔ (n.at? p).isSome = true) ∧ ps.Nodup ∧ ps.Pairwise order

/-- A visit and a transformation that changes nothing meet the same nodes below the same ancestors,
and each address of the tree once.  The visit meets a node before and the transformation after the
nodes below it, and both meet siblings from left to right. -/
theorem visit_transform_addresses {n : Node} (hn : n.wellFormed = true) :
    ∃ calls, n.transformRecorded (fun m _ => m) = (.ok n, calls) ∧ calls.Perm n.visit ∧
      n.Meets Before n.visit ∧ n.Meets After calls := by
  have hvisit : n.visit.map some = n.preorder.map n.occurrence? := by
    rw [visit_eq_visitBelow, visitBelow_occurrences, occurrenceBelow?_root]
  have hcalls : ((n.replacements (fun m _ => m) .any []).map subject).map some =
      n.postorder.map n.occurrence? := by
    rw [replacements_occurrences, occurrenceBelow?_root]
  have hrecorded := (transformRecorded_of_fits (fault?_replacements_unchanged hn rfl [])).1
  rw [rewritten_unchanged] at hrecorded
  refine ⟨_, hrecorded, ?_, ?_, ?_⟩
  · rw [← List.map_perm_map_iff fun _ _ => Option.some.inj, hcalls, hvisit]
    exact n.postorder_perm_preorder.map _
  · exact ⟨n.preorder, hvisit, fun _ => mem_preorder, n.nodup_preorder, n.pairwise_preorder⟩
  · exact ⟨n.postorder, hcalls, fun _ => mem_postorder, n.nodup_postorder, n.pairwise_postorder⟩

/-- A column that is compared with itself is met at two addresses, below one node. -/
theorem visit_transform_addresses_comparison :
    let a : Node := ⟨.column ⟨.identifier "a"⟩⟩
    let n : Node := ⟨.binaryOperation a ⟨.operator .eq⟩ a⟩
    n.wellFormed = true ∧ n.at? [0] = some a ∧ n.at? [2] = some a ∧
      ∃ calls, n.transformRecorded (fun m _ => m) = (.ok n, calls) ∧ calls.Perm n.visit ∧
        n.Meets Before n.visit ∧ n.Meets After calls := by
  intro a n
  have hn : n.wellFormed = true := by decide
  exact ⟨hn, rfl, rfl, visit_transform_addresses hn⟩

end Node

end SqlTree
