import SqlTree.Proofs.Migrate.Planning
import SqlTree.Proofs.Migrate.Register
import Mathlib.Data.Finset.Dedup
import Mathlib.Data.Finset.Basic
import Mathlib.Data.Finset.Sort
import Mathlib.Logic.Function.Basic

/-!
# The archive of executed migrations

What a database makes of the bookkeeping statements it is sent: which migrations are booked for
good, and what open transactions would add and take away.
-/

namespace SqlTree

open Migrate

namespace Migrate

/-- The books with a migration booked as executed, or as reverted. -/
def book (books : Finset String) : Direction × String → Finset String
  | (.up, name) => insert name books
  | (.down, name) => books.erase name

end Migrate

/-- The books of a database, and what the open transaction of a session has written, if there is
one. -/
structure Archive (σ : Type) where
  committed : Finset String
  pending : σ → Option (List (Direction × String)) := fun _ => none

namespace Migrate

/-- The books as a list, in the order of the names. -/
def listed (books : Finset String) : List String := books.sort

/-- The first migrations of all. -/
def first (names : List String) (k : Nat) : Finset String := (names.take k).toFinset

section First

variable {names : List String} {n : String} {j k : Nat} (hnames : names.Pairwise (· < ·))

theorem mem_first : n ∈ first names k ↔ ∃ j < k, names[j]? = some n := by
  simp only [first, List.mem_toFinset, List.mem_take_iff_getElem, List.getElem?_eq_some_iff]
  constructor
  · rintro ⟨j, hj, rfl⟩
    exact ⟨j, by omega, by omega, rfl⟩
  · rintro ⟨j, hjk, hj, rfl⟩
    exact ⟨j, by omega, rfl⟩

include hnames

/-- Names stand at one place. -/
theorem mem_first_iff (h : names[j]? = some n) : n ∈ first names k ↔ j < k := by
  rw [mem_first]
  constructor
  · rintro ⟨i, hik, hi⟩
    obtain ⟨hlt, hj⟩ := List.getElem?_eq_some_iff.mp h
    obtain ⟨hlt', hi⟩ := List.getElem?_eq_some_iff.mp hi
    obtain rfl : j = i := hnames.nodup.getElem_inj_iff.mp (hj.trans hi.symm)
    exact hik
  · exact fun hjk => ⟨j, hjk, h⟩

omit hnames in
theorem insert_first (h : names[k]? = some n) : insert n (first names k) = first names (k + 1) := by
  obtain ⟨hlt, rfl⟩ := List.getElem?_eq_some_iff.mp h
  ext m
  simp only [first, List.take_succ_eq_append_getElem hlt, Finset.mem_insert, List.mem_toFinset,
    List.mem_append, List.mem_singleton, or_comm]

theorem erase_first (h : names[k]? = some n) : (first names (k + 1)).erase n = first names k := by
  have hn : n ∉ first names k := by
    rw [mem_first_iff hnames h]
    exact lt_irrefl k
  rw [← insert_first h, Finset.erase_insert hn]

theorem listed_first (k : Nat) : listed (first names k) = names.take k := by
  have htake : (names.take k).Pairwise (· < ·) := hnames.sublist (List.take_sublist k names)
  exact (List.toFinset_sort (· ≤ ·) htake.nodup).mpr (htake.imp le_of_lt)

/-- The books are those of a prefix of the names exactly if they list it. -/
theorem listed_isPrefix_iff {books : Finset String} :
    listed books <+: names ↔ ∃ k ≤ names.length, books = first names k := by
  constructor
  · intro h
    refine ⟨_, h.length_le, ?_⟩
    rw [first, ← List.prefix_iff_eq_take.mp h, listed, Finset.sort_toFinset]
  · rintro ⟨k, -, rfl⟩
    rw [listed_first hnames]
    exact List.take_prefix k names

theorem length_listed_first (h : k ≤ names.length) : (listed (first names k)).length = k := by
  rw [listed_first hnames, List.length_take, min_eq_left h]

end First

end Migrate

namespace Archive

variable {σ : Type} [DecidableEq σ] (a : Archive σ)

/-- What a transaction that is open has written. -/
def written (x : σ) : List (Direction × String) := (a.pending x).getD []

/-- The books as a session sees them. -/
def view (x : σ) : Finset String := (a.written x).foldl book a.committed

def set (x : σ) (writes : Option (List (Direction × String))) : Archive σ :=
  { a with pending := Function.update a.pending x writes }

/-- A booking stays with its transaction, or else counts at once. -/
def write (x : σ) (w : Direction × String) : Archive σ :=
  match a.pending x with
  | some ws => a.set x (some (ws ++ [w]))
  | none => { a with committed := book a.committed w }

variable {u : Party} (reg : Register u) (session : Connection → σ)

/-- The archive after an act. -/
def after : Act → Archive σ
  | .call (.acquire (.ok c)) => a.set (session c) none
  | .call (.begin c _ (.ok _)) => a.set (session c) (some [])
  | .call (.commit c (.ok _)) =>
    { a.set (session c) none with committed := a.view (session c) }
  | .call (.rollback c _) => a.set (session c) none
  | .call (.execute c q (.ok _)) =>
    match reg.kind? q.sql q.parameters with
    | some (.booked direction name) => a.write (session c) (direction, name)
    | _ => a
  | _ => a

def run (acts : List Act) : Archive σ := acts.foldl (fun a x => a.after reg session x) a

/-- An answer to a reading of the history lists the books as the session sees them. -/
def Honest : Act → Prop
  | .call (.execute c q answer) => reg.kind? q.sql q.parameters = some .read →
      ∀ done, history (u.receive answer) = .ok done →
        (done.map Executed.name).toFinset = a.view (session c)
  | _ => True

/-- All answers are honest when they are given. -/
def Faithful (acts : List Act) : Prop :=
  ∀ before x after, acts = before ++ x :: after → (a.run reg session before).Honest reg session x

section Faithful

variable {a} {reg} {session} {x : Act} {acts xs ys : List Act}

theorem run_append : a.run reg session (xs ++ ys) = (a.run reg session xs).run reg session ys :=
  List.foldl_append

@[simp] theorem faithful_nil : a.Faithful reg session [] := fun _ _ _ heq => by simp at heq

@[simp] theorem faithful_cons : a.Faithful reg session (x :: acts) ↔
    a.Honest reg session x ∧ (a.after reg session x).Faithful reg session acts := by
  constructor
  · intro h
    exact ⟨h [] x acts rfl, fun before y rest heq => h (x :: before) y rest (congrArg (x :: ·) heq)⟩
  · rintro ⟨hx, hacts⟩ before y rest heq
    cases before with
    | nil =>
      obtain ⟨rfl, -⟩ := List.cons.inj heq
      exact hx
    | cons z before =>
      obtain ⟨rfl, hrest⟩ := List.cons.inj heq
      exact hacts before y rest hrest

theorem Faithful.head (h : a.Faithful reg session (x :: acts)) : a.Honest reg session x :=
  (faithful_cons.mp h).1

theorem Faithful.tail (h : a.Faithful reg session (x :: acts)) :
    (a.after reg session x).Faithful reg session acts := (faithful_cons.mp h).2

theorem Faithful.left (h : a.Faithful reg session (xs ++ ys)) : a.Faithful reg session xs :=
  fun before x after heq => h before x (after ++ ys) (by rw [heq]; simp)

theorem Faithful.right (h : a.Faithful reg session (xs ++ ys)) :
    (a.run reg session xs).Faithful reg session ys := fun before x after heq => by
  rw [← run_append]
  exact h (xs ++ before) x after (by rw [heq]; simp)

end Faithful

section

variable {a} {x y : σ}

omit [DecidableEq σ] in
theorem view_of_written (h : a.written x = []) : a.view x = a.committed := by rw [view, h]; rfl

theorem written_write_none (h : a.pending x = none) (w : Direction × String) :
    a.write x w = { a with committed := book a.committed w } := by rw [write, h]

theorem view_write_some {ws : List (Direction × String)} (h : a.pending x = some ws)
    (w : Direction × String) : (a.write x w).view x = book (a.view x) w := by
  simp [write, h, view, written, set]

end

end Archive

end SqlTree
