import SqlTree.Migrate.Plan
import Mathlib.Data.List.Infix
import Mathlib.Data.List.Nodup
import Mathlib.Data.List.TakeDrop

/-!
# Plans of batches

A history is accepted exactly if it is a prefix of the names (`checkHistory_iff`).  Then every plan
leads from what was executed to the count of its target, by slices that are in range
(`Plan.sliced?_eq`, `Plan.leads_of`).
-/

namespace SqlTree.Migrate

variable {names executed : List String}

theorem checkFrom_iff {position : Nat} :
    checkFrom names position executed = .ok () ↔ executed <+: names.drop position := by
  induction executed generalizing position with
  | nil => simp [checkFrom]
  | cons n executed ih =>
    rw [checkFrom]
    by_cases hget : names[position]? = some n
    · obtain ⟨hlt, rfl⟩ := List.getElem?_eq_some_iff.mp hget
      rw [if_neg (by simp), if_neg (not_not_intro hget), ih, List.drop_eq_getElem_cons hlt,
        List.cons_prefix_cons]
      simp
    · have hno : ¬ n :: executed <+: names.drop position := by
        rintro ⟨rest, hrest⟩
        have hhead := congrArg (·[0]?) hrest
        simp only [List.cons_append, List.getElem?_cons_zero, List.getElem?_drop] at hhead
        exact hget hhead.symm
      rw [iff_false_right hno]
      split
      · nofun
      · nofun

theorem checkHistory_iff : checkHistory names executed = .ok () ↔ executed <+: names :=
  checkFrom_iff

/-- How many migrations are to be executed in the end, when some are. -/
def Target.goal? (names : List String) (executed : Nat) : Target → Option Nat
  | .latest => some names.length
  | .up => some (min (executed + 1) names.length)
  | .down => some (executed - 1)
  | .named n => (names.findIdx? (· == n)).map (· + 1)

/-- The part of a list between two positions, if they are in order and in range. -/
def slice? (names : List String) (start stop : Nat) : Option (List String) :=
  if start ≤ stop ∧ stop ≤ names.length then some ((names.take stop).drop start) else none

namespace Plan

/-- The plan for a target, if its slices are in range. -/
def sliced? (names : List String) (executed : Nat) : Target → Option (Except Error Plan)
  | .latest => (slice? names executed names.length).map (.ok ⟨.up, ·⟩)
  | .up => (slice? names executed (min (executed + 1) names.length)).map (.ok ⟨.up, ·⟩)
  | .down => (slice? names (executed - 1) executed).map fun ns => .ok ⟨.down, ns.reverse⟩
  | .named n =>
    match names.findIdx? (· == n) with
    | none => some (.error (.migration (.unknown n)))
    | some i =>
      if i < executed then (slice? names (i + 1) executed).map fun ns => .ok ⟨.down, ns.reverse⟩
      else (slice? names executed (i + 1)).map (.ok ⟨.up, ·⟩)

/-- A plan that leads from `start` executed migrations to `goal` of them. -/
inductive Leads (names : List String) (start goal : Nat) : Plan → Prop
  | up (h : start ≤ goal) : Leads names start goal ⟨.up, (names.take goal).drop start⟩
  | down (h : goal ≤ start) : Leads names start goal ⟨.down, ((names.take start).drop goal).reverse⟩

variable {executed start goal k : Nat} {target : Target} {plan : Plan}

theorem slice?_eq_some {stop : Nat} (h : start ≤ stop) (h' : stop ≤ names.length) :
    slice? names start stop = some ((names.take stop).drop start) :=
  if_pos ⟨h, h'⟩

theorem findIdx?_lt {n : String} {i : Nat} (h : names.findIdx? (· == n) = some i) :
    i < names.length :=
  (List.findIdx?_eq_some_iff_getElem.mp h).1

/-- With a history that was accepted, no slice of a plan is out of range. -/
theorem sliced?_eq (h : executed ≤ names.length) (target : Target) :
    sliced? names executed target = some (of names executed target) := by
  cases target with
  | latest =>
    rw [sliced?, slice?_eq_some h le_rfl]
    rfl
  | up =>
    have hle : executed ≤ min (executed + 1) names.length := by omega
    rw [sliced?, slice?_eq_some hle (Nat.min_le_right _ _), ← List.take_eq_take_min]
    rfl
  | down =>
    rw [sliced?, slice?_eq_some (Nat.sub_le _ _) h]
    rfl
  | named n =>
    rw [sliced?, of]
    cases hi : names.findIdx? (· == n) with
    | none => rfl
    | some i =>
      have hlt := findIdx?_lt hi
      by_cases hexecuted : i < executed
      · simp only [if_pos hexecuted, slice?_eq_some (show i + 1 ≤ executed from hexecuted) h]
        rfl
      · simp only [if_neg hexecuted,
          slice?_eq_some (show executed ≤ i + 1 by omega) (show i + 1 ≤ names.length from hlt)]
        rfl

/-- A plan leads to the goal of its target, and without a goal there is no plan. -/
theorem leads_of (h : executed ≤ names.length) (hplan : of names executed target = .ok plan) :
    ∃ goal, target.goal? names executed = some goal ∧ goal ≤ names.length ∧
      Leads names executed goal plan := by
  cases target with
  | latest =>
    cases hplan
    exact ⟨_, rfl, le_rfl, .up h⟩
  | up =>
    cases hplan
    refine ⟨_, rfl, Nat.min_le_right _ _, ?_⟩
    rw [upTo, List.take_eq_take_min]
    exact .up (by omega)
  | down =>
    cases hplan
    exact ⟨_, rfl, by omega, .down (Nat.sub_le _ _)⟩
  | named n =>
    rw [of] at hplan
    cases hi : names.findIdx? (· == n) with
    | none =>
      rw [hi] at hplan
      cases hplan
    | some i =>
      rw [hi] at hplan
      have hlt := findIdx?_lt hi
      refine ⟨i + 1, by rw [Target.goal?, hi]; rfl, hlt, ?_⟩
      cases hplan
      split
      · next hexecuted => exact .down hexecuted
      · next hexecuted => exact .up (by omega)

/-- Only an unknown name has no goal. -/
theorem exists_of_goal?_eq_none (h : target.goal? names executed = none) :
    ∃ n, target = .named n ∧ n ∉ names ∧
      of names executed target = .error (.migration (.unknown n)) := by
  cases target with
  | latest => cases h
  | up => cases h
  | down => cases h
  | named n =>
    have hi : names.findIdx? (· == n) = none := by simpa [Target.goal?] using h
    refine ⟨n, rfl, fun hn => ?_, by rw [of, hi]⟩
    exact absurd (List.findIdx?_eq_none_iff.mp hi n hn) (by simp)

namespace Leads

/-- A plan is made of some of the names, in their order or in reverse. -/
theorem sublist_or_reverse (h : Leads names start goal plan) :
    plan.names.Sublist names ∨ plan.names.reverse.Sublist names := by
  cases h with
  | up h => exact .inl ((List.drop_sublist ..).trans (List.take_sublist ..))
  | down h =>
    rw [List.reverse_reverse]
    exact .inr ((List.drop_sublist ..).trans (List.take_sublist ..))

theorem subset (h : Leads names start goal plan) : plan.names ⊆ names := by
  obtain h | h := h.sublist_or_reverse
  · exact h.subset
  · exact List.reverse_subset.mp h.subset

theorem nodup (h : Leads names start goal plan) (hnames : names.Nodup) : plan.names.Nodup := by
  obtain h | h := h.sublist_or_reverse
  · exact hnames.sublist h
  · exact List.nodup_reverse.mp (hnames.sublist h)

/-- The first migration of a plan is the one next to where the plan starts. -/
theorem cons {direction : Direction} {n : String} {rest : List String}
    (h : Leads names k goal ⟨direction, n :: rest⟩) (hk : k ≤ names.length) :
    direction = .up ∧ k < goal ∧ names[k]? = some n ∧ Leads names (k + 1) goal ⟨.up, rest⟩ ∨
      direction = .down ∧ goal < k ∧ names[k - 1]? = some n ∧
        Leads names (k - 1) goal ⟨.down, rest⟩ := by
  generalize hplan : (⟨direction, n :: rest⟩ : Plan) = plan at h
  cases h with
  | up h =>
    obtain ⟨rfl, hnames⟩ := Plan.mk.inj hplan
    have hlt : k < (names.take goal).length := by
      by_contra hge
      rw [List.drop_eq_nil_of_le (not_lt.mp hge)] at hnames
      cases hnames
    rw [List.drop_eq_getElem_cons hlt, List.cons.injEq] at hnames
    obtain ⟨rfl, rfl⟩ := hnames
    rw [List.length_take] at hlt
    refine .inl ⟨rfl, by omega, ?_, .up (by omega)⟩
    rw [List.getElem_take, List.getElem?_eq_getElem]
  | down h =>
    obtain ⟨rfl, hnames⟩ := Plan.mk.inj hplan
    have hlt : goal < k := by
      by_contra hge
      rw [List.drop_eq_nil_of_le (by rw [List.length_take]; omega)] at hnames
      cases hnames
    obtain ⟨k, rfl⟩ : ∃ k', k = k' + 1 := ⟨k - 1, by omega⟩
    rw [List.take_succ_eq_append_getElem hk, List.drop_append_of_le_length
      (by rw [List.length_take]; omega), List.reverse_append] at hnames
    obtain ⟨rfl, rfl⟩ := List.cons.inj hnames
    exact .inr ⟨rfl, hlt, List.getElem?_eq_getElem hk, .down (by omega)⟩

/-- A plan without migrations starts at its goal. -/
theorem eq_of_nil {direction : Direction} (h : Leads names k goal ⟨direction, []⟩)
    (hk : k ≤ names.length) (hgoal : goal ≤ names.length) : k = goal := by
  generalize hplan : (⟨direction, []⟩ : Plan) = plan at h
  cases h with
  | up h =>
    have hlength := congrArg (·.names.length) hplan
    simp at hlength
    omega
  | down h =>
    have hlength := congrArg (·.names.length) hplan
    simp at hlength
    omega

end Leads

end Plan

end SqlTree.Migrate
