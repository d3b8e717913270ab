import SqlTree.Json.Basic
import Mathlib.Data.List.Nodup

/-!
# The order of members

A document may be handed on as it was written, or with the members of every object in the order of
their keys.  `Reorders` says what both have in common: members change places, and nothing else.
-/

namespace SqlTree.Json

theorem insertMember_of_lt {k : String} {v : Json} {ms : List (String × Json)}
    (h : ∀ m ∈ ms, m.1 < k) : insertMember k v ms = ms ++ [(k, v)] := by
  induction ms with
  | nil => rfl
  | cons m ms ih =>
    have hm : m.1 < k := h m List.mem_cons_self
    have hne : (k == m.1) = false :=
      beq_eq_false_iff_ne.mpr fun he => String.lt_irrefl k (he ▸ hm)
    rw [insertMember, hne, if_neg Bool.false_ne_true, if_neg (String.lt_asymm hm),
      ih fun m' hm' => h m' (List.mem_cons_of_mem _ hm')]
    rfl

theorem insertMember_perm {k : String} {v : Json} {ms : List (String × Json)}
    (h : k ∉ ms.map Prod.fst) : (insertMember k v ms).Perm ((k, v) :: ms) := by
  induction ms with
  | nil => exact .refl _
  | cons m ms ih =>
    rw [List.map_cons, List.mem_cons, not_or] at h
    rw [insertMember, beq_eq_false_iff_ne.mpr h.1, if_neg Bool.false_ne_true]
    split
    · exact .refl _
    · exact ((ih h.2).cons m).trans (.swap _ _ _)

/-- Members in order stay where they are. -/
theorem sortMembers_of_pairwise {ms : List (String × Json)} (h : ms.Pairwise (·.1 < ·.1)) :
    sortMembers ms = ms := by
  have hfold : ∀ acc, (acc ++ ms).Pairwise (·.1 < ·.1) →
      ms.foldl (fun acc m => insertMember m.1 m.2 acc) acc = acc ++ ms := by
    clear h
    induction ms with
    | nil => exact fun acc _ => (List.append_nil acc).symm
    | cons m ms ih =>
      intro acc h
      have hlt : ∀ m' ∈ acc, m'.1 < m.1 :=
        fun m' hm' => (List.pairwise_append.mp h).2.2 m' hm' m List.mem_cons_self
      rw [List.append_cons] at h ⊢
      rw [List.foldl_cons, insertMember_of_lt hlt, ih _ h]
  exact hfold [] h

/-- Members of different keys only change places. -/
theorem sortMembers_perm {ms : List (String × Json)} (h : (ms.map Prod.fst).Nodup) :
    (sortMembers ms).Perm ms := by
  have hfold : ∀ acc, ((ms ++ acc).map Prod.fst).Nodup →
      (ms.foldl (fun acc m => insertMember m.1 m.2 acc) acc).Perm (ms ++ acc) := by
    clear h
    induction ms with
    | nil => exact fun acc _ => .refl _
    | cons m ms ih =>
      intro acc h
      rw [List.cons_append, List.map_cons, List.nodup_cons] at h
      have hnew : m.1 ∉ acc.map Prod.fst := fun hm =>
        h.1 (List.map_append ▸ List.mem_append_right _ hm)
      have hperm : (ms ++ insertMember m.1 m.2 acc).Perm (m :: (ms ++ acc)) :=
        ((insertMember_perm hnew).append_left ms).trans List.perm_middle
      exact (ih _ (((hperm.map Prod.fst).nodup_iff).mpr (List.nodup_cons.mpr h))).trans hperm
  have hsort := hfold []
  rw [List.append_nil] at hsort
  exact hsort h

theorem sortedItems_eq_map (js : List Json) : sortedItems js = js.map sorted := by
  induction js with
  | nil => rfl
  | cons j js ih => rw [sortedItems, ih, List.map_cons]

theorem sortedMembers_eq_map (ms : List (String × Json)) :
    sortedMembers ms = ms.map fun m => (m.1, m.2.sorted) := by
  induction ms with
  | nil => rfl
  | cons m ms ih => rw [sortedMembers, ih, List.map_cons]

/-- Ways to hand on documents that change no more than the order of members. -/
structure Reorders (T : Json → Json) : Prop where
  /-- What is in order already is kept, as are documents without parts. -/
  sorted : ∀ j, j.sorted = j → T j = j
  array : ∀ js, T (.array js) = .array (js.map T)
  /-- Members in the order of their keys stay in place, -/
  ordered : ∀ ms : List (String × Json), ms.Pairwise (·.1 < ·.1) →
    T (.object ms) = .object (ms.map fun m => (m.1, T m.2))
  /-- and members of different keys are moved at most. -/
  moved : ∀ ms : List (String × Json), (ms.map Prod.fst).Nodup →
    ∃ ms' : List (String × Json), ms'.Perm (ms.map fun m => (m.1, T m.2)) ∧
      T (.object ms) = .object ms'

namespace Reorders

protected theorem id : Reorders id where
  sorted _ _ := rfl
  array js := by rw [List.map_id]; rfl
  ordered ms _ := by simp
  moved ms _ := ⟨ms, by simp, rfl⟩

/-- Sorting the members of every object. -/
protected theorem sort : Reorders Json.sorted where
  sorted _ h := h
  array js := by rw [Json.sorted, sortedItems_eq_map]
  ordered ms h := by
    have hsort := sortMembers_of_pairwise
      (List.pairwise_map (f := fun m : String × Json => (m.1, m.2.sorted)).mpr h)
    rw [Json.sorted, sortedMembers_eq_map, ofMembers, hsort]
  moved ms h := by
    refine ⟨_, sortMembers_perm ?_, by rw [Json.sorted, sortedMembers_eq_map, ofMembers]⟩
    rw [List.map_map]
    exact h

variable {T : Json → Json} (hT : Reorders T)

include hT

theorem string (s : String) : T (.string s) = .string s := hT.sorted _ rfl

/-- An object with one member. -/
theorem single (k : String) (j : Json) : T (.object [(k, j)]) = .object [(k, T j)] :=
  hT.ordered _ (List.pairwise_singleton _ _)

end Reorders

end SqlTree.Json
