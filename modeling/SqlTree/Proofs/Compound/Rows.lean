import Mathlib.Data.Multiset.Dedup
import Mathlib.Data.Multiset.UnionInter
import Mathlib.Data.Multiset.Replicate
import SqlTree.Build.Select

/-!
# Rows of set operations

Queries are combined as bags of rows.  A row is in a combination as often as its numbers in the two
operands say (`Combination.count_rows`), so laws of combinations are laws of numbers.  The law that
matters for texts without parentheses is which operations may be regrouped
(`Combination.regroups_iff`).
-/

namespace SqlTree

/-- A set operation that drops repeated rows, or keeps them. -/
structure Combination where
  operator : SetOperator
  all : Bool
  deriving DecidableEq, Repr

namespace Combination

/-- How often a row is in a combination of operands that hold it so many times. -/
def count : Combination → Nat → Nat → Nat
  | ⟨.union, true⟩, m, n => m + n
  | ⟨.union, false⟩, m, n => min 1 (m + n)
  | ⟨.intersect, true⟩, m, n => min m n
  | ⟨.intersect, false⟩, m, n => min 1 (min m n)
  | ⟨.except, true⟩, m, n => m - n
  | ⟨.except, false⟩, m, n => min 1 m - n

section Rows

variable {Row : Type} [DecidableEq Row]

def rows : Combination → Multiset Row → Multiset Row → Multiset Row
  | ⟨.union, true⟩, s, t => s + t
  | ⟨.union, false⟩, s, t => (s + t).dedup
  | ⟨.intersect, true⟩, s, t => s ∩ t
  | ⟨.intersect, false⟩, s, t => (s ∩ t).dedup
  | ⟨.except, true⟩, s, t => s - t
  | ⟨.except, false⟩, s, t => s.dedup - t

theorem count_dedup_eq_min (s : Multiset Row) (r : Row) :
    s.dedup.count r = min 1 (s.count r) := by
  rw [Multiset.count_dedup]
  split
  · have := Multiset.count_pos.mpr ‹r ∈ s›
    omega
  · have := Multiset.count_eq_zero.mpr ‹r ∉ s›
    omega

theorem count_rows (o : Combination) (s t : Multiset Row) (r : Row) :
    (o.rows s t).count r = o.count (s.count r) (t.count r) := by
  obtain ⟨operator, all⟩ := o
  cases operator <;> cases all <;> simp [rows, count, count_dedup_eq_min, Multiset.count_sub]

end Rows

/-- Whether `a o (b p c)` is `(a o b) p c` for all rows. -/
def regroups : Combination → Combination → Bool
  | ⟨.union, all⟩, ⟨.union, all'⟩ => all == all'
  | ⟨.intersect, _⟩, ⟨.intersect, _⟩ => true
  | ⟨.intersect, _⟩, ⟨.except, all⟩ => !all
  | _, _ => false

theorem intersect_of_regroups {o p : Combination} (h : o.regroups p = true)
    (hp : p.operator = .intersect) : o.operator = .intersect := by
  obtain ⟨operator, all⟩ := o
  obtain ⟨operator', all'⟩ := p
  cases hp
  cases operator with
  | intersect => rfl
  | _ => cases h

theorem count_regroup {o p : Combination} (h : o.regroups p = true) (a b c : Nat) :
    o.count a (p.count b c) = p.count (o.count a b) c := by
  obtain ⟨o, all⟩ := o
  obtain ⟨p, all'⟩ := p
  cases o <;> cases p <;> cases all <;> cases all' <;>
    first
      | exact absurd h Bool.false_ne_true
      | (simp only [count]; omega)

/-- Numbers up to two tell apart what may not be regrouped. -/
theorem exists_count_ne {o p : Combination} (h : o.regroups p = false) :
    ∃ a b c, o.count a (p.count b c) ≠ p.count (o.count a b) c := by
  obtain ⟨o, all⟩ := o
  obtain ⟨p, all'⟩ := p
  have hsmall : ∃ a b c : Fin 3, count ⟨o, all⟩ a (count ⟨p, all'⟩ b c) ≠
      count ⟨p, all'⟩ (count ⟨o, all⟩ a b) c := by
    revert h
    cases o <;> cases p <;> cases all <;> cases all' <;> decide
  obtain ⟨a, b, c, hne⟩ := hsmall
  exact ⟨a, b, c, hne⟩

theorem rows_regroup {Row : Type} [DecidableEq Row] {o p : Combination}
    (h : o.regroups p = true) (s t u : Multiset Row) :
    o.rows s (p.rows t u) = p.rows (o.rows s t) u := by
  ext r
  simp only [count_rows]
  exact count_regroup h _ _ _

/-- The table of operations that may be regrouped is complete. -/
theorem regroups_iff {o p : Combination} :
    o.regroups p = true ↔
      ∀ s t u : Multiset Unit, o.rows s (p.rows t u) = p.rows (o.rows s t) u := by
  constructor
  · intro h s t u
    exact rows_regroup h s t u
  · intro h
    by_contra hne
    obtain ⟨a, b, c, hcount⟩ := exists_count_ne (Bool.eq_false_of_not_eq_true hne)
    have hrows := congrArg (Multiset.count ()) (h (.replicate a ()) (.replicate b ())
      (.replicate c ()))
    simp only [count_rows, Multiset.count_replicate_self] at hrows
    exact hcount hrows

end Combination

/-- All rows of a table. -/
def Select.allOf (table : String) : Select Node :=
  (Select.begin (some [.table none table]) none).selectAll

end SqlTree
