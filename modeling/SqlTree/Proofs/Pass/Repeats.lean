import SqlTree.Proofs.Pass.Recompiling
import SqlTree.Proofs.Pass.Shipped
import SqlTree.Proofs.Tree.Agreement
import SqlTree.Proofs.Tree.Rebuilding

/-!
# Joins without repeats

Of joins that are equal the first one stays, whichever of them it is compared with
(`DeduplicateJoins.firsts_eq_firstOccurrences`).  Joins are compared after the statements inside
them have lost theirs, so a tree is left with no two equal joins in any statement, and nothing but
joins is gone from it (`DeduplicateJoins.apply_drops_repeats`).
-/

namespace SqlTree

namespace DeduplicateJoins

open Node

/-- The nodes that equal no earlier one. -/
def firstOccurrences (js : List Node) : List Node :=
  (js.zipIdx.filter fun x => !(js.take x.2).any (· == x.1)).map Prod.fst

section Lists

variable {seen js : List Node}

/-- It is enough to compare with those that stayed: they equal whatever was met. -/
theorem firsts_eq_filter (done : List Node)
    (hdone : ∀ k, seen.any (· == k) = done.any (· == k)) :
    firsts seen js = ((js.zipIdx done.length).filter fun x =>
      !((done ++ js).take x.2).any (· == x.1)).map Prod.fst := by
  induction js generalizing seen done with
  | nil => rfl
  | cons j js ih =>
    have htake : (done ++ j :: js).take done.length = done := List.take_left
    have hlength : (done ++ [j]).length = done.length + 1 := by simp
    have hcons : done ++ j :: js = done ++ [j] ++ js := List.append_cons done j js
    rw [List.zipIdx_cons, List.filter_cons, htake, ← hdone, firsts, hcons, ← hlength]
    cases hseen : seen.any (· == j) with
    | true =>
      rw [if_pos rfl, if_neg (by simp)]
      refine ih (done ++ [j]) fun k => ?_
      -- A node that equals `j` equals what stayed in the place of `j`.
      rw [List.any_append, ← hdone, List.any_cons, List.any_nil, Bool.or_false]
      cases hjk : j == k with
      | false => rw [Bool.or_false]
      | true =>
        obtain ⟨a, ha, haj⟩ := List.any_eq_true.mp hseen
        rw [Bool.or_true]
        exact List.any_eq_true.mpr ⟨a, ha, beq_trans haj hjk⟩
    | false =>
      rw [if_neg Bool.false_ne_true, if_pos (by simp), List.map_cons]
      refine congrArg (j :: ·) (ih (done ++ [j]) fun k => ?_)
      rw [List.any_append, List.any_append, hdone]

theorem firsts_eq_firstOccurrences (js : List Node) : firsts [] js = firstOccurrences js :=
  firsts_eq_filter [] fun _ => rfl

/-- Nodes of which no two are equal. -/
def Apart (js : List Node) : Prop := js.Pairwise fun a b => ¬ (a == b) = true ∧ ¬ (b == a) = true

theorem apart_firsts (seen js : List Node) :
    Apart (firsts seen js) ∧ ∀ j ∈ firsts seen js, seen.any (· == j) = false := by
  induction js generalizing seen with
  | nil => exact ⟨.nil, nofun⟩
  | cons j js ih =>
    unfold firsts
    split
    · exact ih seen
    · rename_i hnew
      obtain ⟨hapart, hall⟩ := ih (seen ++ [j])
      simp only [List.any_append, List.any_cons, List.any_nil, Bool.or_false,
        Bool.or_eq_false_iff] at hall
      refine ⟨List.pairwise_cons.mpr ⟨fun k hk => ?_, hapart⟩, ?_⟩
      · have hjk := Bool.eq_false_iff.mp (hall k hk).2
        exact ⟨hjk, fun hkj => hjk (beq_symm hkj)⟩
      · exact List.forall_mem_cons.mpr ⟨Bool.eq_false_iff.mpr hnew, fun k hk => (hall k hk).1⟩

theorem firsts_of_apart (h : Apart js) (hseen : ∀ j ∈ js, seen.any (· == j) = false) :
    firsts seen js = js := by
  induction js generalizing seen with
  | nil => rfl
  | cons j js ih =>
    obtain ⟨hj, hjs⟩ := List.pairwise_cons.mp h
    obtain ⟨hnew, hseen⟩ := List.forall_mem_cons.mp hseen
    rw [firsts, hnew, if_neg Bool.false_ne_true, ih hjs]
    intro k hk
    rw [List.any_append, hseen k hk, Bool.false_or, List.any_cons, List.any_nil, Bool.or_false]
    exact Bool.eq_false_iff.mpr (hj k hk).1

theorem firsts_firsts (js : List Node) : firsts [] (firsts [] js) = firsts [] js :=
  firsts_of_apart (apart_firsts [] js).1 fun _ _ => rfl

end Lists

end DeduplicateJoins

/-- The joins of a statement, which selects, updates and deletes may have. -/
def Shape.joins {α : Type} : Shape α → List α
  | .selectQuery p => p.joins
  | .updateQuery p => p.joins
  | .deleteQuery p => p.joins
  | _ => []

namespace Field

/-- The field with children that equal no earlier one. -/
def withoutRepeats : Field Node → Field Node
  | .children slot ns => .children slot (DeduplicateJoins.firstOccurrences ns)
  | x => x

theorem toList_withoutRepeats_subset (x : Field Node) : x.withoutRepeats.toList ⊆ x.toList := by
  cases x with
  | children slot ns =>
    rw [withoutRepeats, ← DeduplicateJoins.firsts_eq_firstOccurrences]
    exact (DeduplicateJoins.firsts_sublist [] ns).subset
  | _ => exact List.Subset.refl _

end Field

namespace DeduplicateJoins

open Node

theorem kind_deduplicate (n : Node) : (deduplicate n).kind = n.kind :=
  keepsFaults_deduplicate.kind n []

/-- One step drops joins from the field they are in and touches no other field. -/
theorem fields_deduplicate (s : Shape Node) : (deduplicate ⟨s⟩).shape.fields = s.fields.map fun x =>
    (x.1, if x.1 = "joins" then x.2.withoutRepeats else x.2) := by
  cases s
  case selectQuery p | updateQuery p | deleteQuery p =>
    simp [deduplicate, shape, Shape.fields, Select.fields, Update.fields, Delete.fields,
      Field.withoutRepeats, firsts_eq_firstOccurrences]
  all_goals
    simp [deduplicate, shape, Shape.fields, Aggregate.fields, OnConflict.fields, Insert.fields,
      Merge.fields, CreateTable.fields, ColumnDefinition.fields, Generated.fields,
      References.fields, CreateIndex.fields, CreateView.fields, AlterTable.fields,
      AlterColumn.fields]

theorem deduplicate_deduplicate (n : Node) : deduplicate (deduplicate n) = deduplicate n := by
  obtain ⟨s⟩ := n
  cases s
  case selectQuery p | updateQuery p | deleteQuery p => simp only [deduplicate, firsts_firsts]
  all_goals rfl

theorem children_deduplicate_subset (n : Node) :
    (deduplicate n).shape.children ⊆ n.shape.children := by
  obtain ⟨s⟩ := n
  rw [Shape.children, fields_deduplicate, List.flatMap_map]
  intro c hc
  obtain ⟨x, hx, hc⟩ := List.mem_flatMap.mp hc
  refine List.mem_flatMap.mpr ⟨x, hx, ?_⟩
  split at hc
  · exact x.2.toList_withoutRepeats_subset hc
  · exact hc

theorem unchanged_rewrite_deduplicate (n : Node) : (n.rewrite deduplicate).Unchanged deduplicate :=
  unchanged_rewrite (fun n h => unchanged_iff.mpr ⟨deduplicate_deduplicate n, fun c hc =>
    h c (children_deduplicate_subset n hc)⟩) n

/-- What is left of the joins of a statement has no two that are equal. -/
theorem apart_of_deduplicate_eq {s : Shape Node} (h : deduplicate ⟨s⟩ = ⟨s⟩) : Apart s.joins := by
  cases s
  case selectQuery p | updateQuery p | deleteQuery p =>
    have hjoins : firsts [] p.joins = p.joins := congrArg (fun n => n.shape.joins) h
    show Apart p.joins
    exact hjoins ▸ (apart_firsts [] p.joins).1
  all_goals exact .nil

/-- A tree without repeated joins: every field as it was, with what became of the children in their
place, but for joins, of which those are gone that have come to equal an earlier one. -/
inductive Deduplicated : Node → Node → Prop
  | mk {s t : Shape Node} {g : Node → Node} (h : ∀ c ∈ s.children, Deduplicated c (g c))
      (hkind : t.kind = s.kind)
      (hfields : t.fields = s.fields.map fun x => (x.1,
        if x.1 = "joins" then (x.2.map g).withoutRepeats else x.2.map g)) :
    Deduplicated ⟨s⟩ ⟨t⟩

theorem deduplicate_map_eq_iff {s t : Shape Node} {g : Node → Node} :
    deduplicate ⟨s.map g⟩ = ⟨t⟩ ↔ t.kind = s.kind ∧ t.fields = s.fields.map fun x => (x.1,
      if x.1 = "joins" then (x.2.map g).withoutRepeats else x.2.map g) := by
  have hkind := (kind_deduplicate ⟨s.map g⟩).trans (Shape.kind_map g s)
  have hfields := fields_deduplicate (s.map g)
  rw [Shape.fields_map, List.map_map] at hfields
  generalize deduplicate ⟨s.map g⟩ = d at hkind hfields ⊢
  obtain ⟨u⟩ := d
  constructor
  · rintro ⟨⟩
    exact ⟨hkind, hfields⟩
  · rintro ⟨hk, hf⟩
    exact congrArg Node.mk (Shape.eq_of_fields_eq (hkind.trans hk.symm) (hfields.trans hf.symm))

theorem deduplicated_iff {n m : Node} : Deduplicated n m ↔ m = n.rewrite deduplicate := by
  constructor
  · intro h
    induction h with
    | mk h hkind hfields ih =>
      rw [rewrite_mk, ← Shape.map_congr _ ih, deduplicate_map_eq_iff.mpr ⟨hkind, hfields⟩]
  · rintro rfl
    induction n using childrenInduction with
    | h s ih =>
      cases hm : rewrite deduplicate ⟨s⟩ with
      | mk t =>
        rw [rewrite_mk, deduplicate_map_eq_iff] at hm
        exact .mk ih hm.1 hm.2

/-- Repeated joins are dropped and nothing else.  That succeeds in every statement, one tree is
meant, no statement in it has two equal joins, and dropping repeats once more changes nothing. -/
theorem apply_drops_repeats {n : Node} (h : n.wellFormed = true) :
    ∃ m, apply n = .ok m ∧ (∀ m', Deduplicated n m' ↔ m' = m) ∧
      (m.Every fun s => Apart s.joins) ∧ apply m = .ok m := by
  have happly : ∀ {n : Node}, n.wellFormed = true → apply n = .ok (n.rewrite deduplicate) :=
    transform_eq_rewrite kind_deduplicate
  have hunchanged := unchanged_rewrite_deduplicate n
  refine ⟨_, happly h, fun _ => deduplicated_iff, ?_, ?_⟩
  · exact hunchanged.imp fun _ => apart_of_deduplicate_eq
  · rw [happly (wellFormed_rewrite kind_deduplicate
      (fun n hn => keepsFaults_deduplicate.wellFormed n [] hn) h), rewrite_of_unchanged hunchanged]

/-- Two joins that differ by a repeated join inside one of them. -/
theorem apply_drops_repeats_inside :
    let inside (js : List Node) : Node := ⟨.join .inner
      ⟨.selectQuery { fromClause := some ⟨.fromClause [.table none "pet"]⟩, joins := js }⟩ none⟩
    let j : Node := ⟨.join .cross (.table none "toy") none⟩
    let n : Node := ⟨.deleteQuery {
      fromClause := ⟨.fromClause [.table none "person"]⟩, joins := [inside [j, j], inside [j]] }⟩
    n.wellFormed = true ∧ (inside [j, j] == inside [j]) = false ∧
      ∃ m, apply n = .ok m ∧ m.shape.joins = [inside [j]] ∧ apply m = .ok m := by
  intro inside j n
  have hw : n.wellFormed = true := rfl
  obtain ⟨m, hm, hunique, -, hagain⟩ := apply_drops_repeats hw
  refine ⟨hw, rfl, m, hm, ?_, hagain⟩
  have hjoins : (apply n).toOption.map (fun m => m.shape.joins) = some [inside [j]] := rfl
  rw [hm] at hjoins
  exact Option.some.inj hjoins

end DeduplicateJoins

end SqlTree
