import SqlTree.Build.Clause
import SqlTree.Proofs.Condition.Filter

/-!
# Filters joined step by step

Step by step a filter is joined to the condition so far, by `and` or by `or`, without
parentheses.  The steps mean what they give from left to right (`Step.meant`).  The condition reads
otherwise: what is joined by `and` goes with the last alternative only (`Step.read`,
`Chained.rel`).  The two are the same if no filter is joined by `and` to a condition that has an
`or` (`Step.read_eq_meant`), and there are filters for which they differ if one is
(`Step.read_probes_ne_meant`).
-/

namespace SqlTree

open Condition

/-- One more filter, joined in one of two ways, or none any more. -/
inductive Step (α : Type) where
  | both (f : α)
  | either (f : α)
  | clear
  deriving DecidableEq, Repr

/-- Alternatives as they are read: those that are complete, and the last one. -/
structure Alternatives where
  before : Truth
  last : Truth
  deriving DecidableEq, Repr

def Alternatives.value (a : Alternatives) : Truth := a.before.either a.last

namespace Step

variable {α β : Type}

def map (f : α → β) : Step α → Step β
  | .both a => .both (f a)
  | .either a => .either (f a)
  | .clear => .clear

/-- How the filter of a step is joined. -/
def mark : Step α → Step Unit := map fun _ => ()

@[simp] theorem mark_map (f : α → β) (s : Step α) : (s.map f).mark = s.mark := by
  cases s <;> rfl

@[simp] theorem mark_unit (m : Step Unit) : m.mark = m := by cases m <;> rfl

/-- The condition after a step. -/
def condition (c : Option Node) : Step Node → Option Node
  | .both n => some (c.elim n (·.both n))
  | .either n => some (c.elim n (·.either n))
  | .clear => none

/-- What is meant after a step. -/
def truth (t : Option Truth) : Step Truth → Option Truth
  | .both u => some (t.elim u (·.both u))
  | .either u => some (t.elim u (·.either u))
  | .clear => none

/-- What is read after a step. -/
def alternatives (a : Option Alternatives) : Step Truth → Option Alternatives
  | .both u => some (a.elim ⟨.no, u⟩ fun a => ⟨a.before, a.last.both u⟩)
  | .either u => some (a.elim ⟨.no, u⟩ fun a => ⟨a.value, u⟩)
  | .clear => none

/-- What steps mean. -/
def meant (ss : List (Step Truth)) : Option Truth := ss.foldl truth none

/-- What the condition after the steps reads. -/
def read (ss : List (Step Truth)) : Option Truth := (ss.foldl alternatives none).map (·.value)

end Step

/-- What the condition of a chain looks like: factors, alternatives of factors, or alternatives to
which a factor was joined. -/
inductive Grouping where
  | empty
  | product
  | sum
  | mixed
  deriving DecidableEq, Repr

namespace Grouping

def next : Grouping → Step Unit → Grouping
  | _, .clear => .empty
  | .empty, _ => .product
  | .product, .both _ => .product
  | .product, .either _ => .sum
  | .sum, .either _ => .sum
  | .sum, .both _ => .mixed
  | .mixed, _ => .mixed

/-- The look of a condition after steps with these marks. -/
def after (ms : List (Step Unit)) : Grouping := ms.foldl next .empty

end Grouping

namespace Step

/-- What is read and what is meant, as long as the condition looks like this. -/
inductive Agree : Grouping → Option Alternatives → Option Truth → Prop
  | empty : Agree .empty none none
  | product (t : Truth) : Agree .product (some ⟨.no, t⟩) (some t)
  | sum (a : Alternatives) : Agree .sum (some a) (some a.value)
  | mixed (a : Alternatives) (t : Truth) : Agree .mixed (some a) (some t)

theorem Agree.step {g : Grouping} {a : Option Alternatives} {t : Option Truth} (h : Agree g a t)
    (s : Step Truth) : Agree (g.next s.mark) (s.alternatives a) (s.truth t) := by
  cases s with
  | clear => cases h <;> exact .empty
  | both u =>
    cases h with
    | empty => exact .product u
    | product t => exact .product (t.both u)
    | sum a => exact .mixed ⟨a.before, a.last.both u⟩ (a.value.both u)
    | mixed a t => exact .mixed ⟨a.before, a.last.both u⟩ (t.both u)
  | either u =>
    cases h with
    | empty => exact .product u
    | product t => exact .sum ⟨t, u⟩
    | sum a => exact .sum ⟨a.value, u⟩
    | mixed a t => exact .mixed ⟨a.value, u⟩ (t.either u)

theorem Agree.steps {g : Grouping} {a : Option Alternatives} {t : Option Truth} (h : Agree g a t)
    (ss : List (Step Truth)) :
    Agree ((ss.map mark).foldl Grouping.next g) (ss.foldl alternatives a) (ss.foldl truth t) := by
  induction ss generalizing g a t with
  | nil => exact h
  | cons s ss ih => exact ih (h.step s)

theorem Agree.value_eq {g : Grouping} {a : Option Alternatives} {t : Option Truth}
    (h : Agree g a t) (hg : g ≠ .mixed) : a.map (·.value) = t := by
  cases h with
  | empty => rfl
  | product t => exact congrArg some (Truth.no_either t)
  | sum a => rfl
  | mixed a t => exact absurd rfl hg

/-- Without an `and` behind an `or`, the condition reads as it is meant. -/
theorem read_eq_meant {ss : List (Step Truth)} (h : Grouping.after (ss.map mark) ≠ .mixed) :
    read ss = meant ss :=
  (Agree.empty.steps ss).value_eq h

/-- Two comparisons, of which the one is met in the sample and the other is not. -/
def met : Filter := .comparison (.literal (.int 0)) .lt (.literal (.int 1))

def missed : Filter := .comparison (.literal (.int 0)) .gt (.literal (.int 1))

def sample : Assignment where
  truth n :=
    match n with
    | ⟨.binaryOperation _ ⟨.operator .lt⟩ _⟩ => .yes
    | ⟨.binaryOperation _ ⟨.operator .eq⟩ ⟨.value (.int i) _⟩⟩ => if i = 0 then .no else .yes
    | _ => .no
  always := rfl
  never := rfl

/-- Steps with given marks, for a chain that looks like `g` so far: the filters are met until one is
joined to alternatives by `and`. -/
def probes : Grouping → List (Step Unit) → List (Step Filter)
  | _, [] => []
  | g, m :: ms =>
    m.map (fun _ => if g.next m = .mixed then missed else met) :: probes (g.next m) ms

/-- Once a filter that is not met was joined to alternatives by `and`, the condition is meant not to
be met, but an alternative still is. -/
inductive Probed : Grouping → Option Alternatives → Option Truth → Prop
  | empty : Probed .empty none none
  | product : Probed .product (some ⟨.no, .yes⟩) (some .yes)
  | sum (t : Truth) : Probed .sum (some ⟨.yes, t⟩) (some .yes)
  | mixed (t : Truth) : Probed .mixed (some ⟨.yes, t⟩) (some .no)

theorem Probed.steps {g : Grouping} {a : Option Alternatives} {t : Option Truth}
    (h : Probed g a t) (ms : List (Step Unit)) :
    Probed (ms.foldl Grouping.next g)
      (((probes g ms).map (map (Filter.value sample))).foldl alternatives a)
      (((probes g ms).map (map (Filter.value sample))).foldl truth t) := by
  induction ms generalizing g a t with
  | nil => exact h
  | cons m ms ih =>
    refine ih ?_
    cases m with
    | clear => cases h <;> exact .empty
    | both =>
      cases h with
      | empty => exact .product
      | product => exact .product
      | sum t => exact .mixed (t.both .no)
      | mixed t => exact .mixed (t.both .no)
    | either =>
      cases h with
      | empty => exact .product
      | product => exact .sum .yes
      | sum t => exact .sum .yes
      | mixed t => exact .mixed .no

theorem Probed.value_ne {a : Option Alternatives} {t : Option Truth} (h : Probed .mixed a t) :
    a.map (·.value) ≠ t := by
  cases h with
  | mixed t => exact nofun

/-- With an `and` behind an `or`, there are filters for which the condition reads otherwise. -/
theorem read_probes_ne_meant {ms : List (Step Unit)} (h : Grouping.after ms = .mixed) :
    read ((probes .empty ms).map (map (Filter.value sample))) ≠
      meant ((probes .empty ms).map (map (Filter.value sample))) := by
  have hprobed := Probed.empty.steps ms
  rw [← Grouping.after, h] at hprobed
  exact hprobed.value_ne

end Step

namespace Condition

/-- The row reads as alternatives. -/
inductive Splits : List Token → (Assignment → Alternatives) → Prop
  | product {ts : List Token} {φ : Formula} (h : Reads .product ts φ) :
    Splits ts fun v => ⟨.no, φ.value v⟩
  | or {ts us : List Token} {φ ψ : Formula} (h : Reads .sum ts φ) (h' : Reads .product us ψ) :
    Splits (ts ++ .or :: us) fun v => ⟨φ.value v, ψ.value v⟩

theorem Splits.reads {ts : List Token} {a : Assignment → Alternatives} (h : Splits ts a) :
    ∃ φ, Reads .sum ts φ ∧ ∀ v, φ.value v = (a v).value := by
  cases h with
  | @product _ φ h => exact ⟨φ, .product h, fun v => (Truth.no_either _).symm⟩
  | @or ts us φ ψ h h' => exact ⟨.either φ ψ, .or h h', fun v => rfl⟩

/-- What is joined by `and` goes with the last alternative. -/
theorem Splits.and {ts us : List Token} {a : Assignment → Alternatives} (h : Splits ts a)
    {ψ : Formula} (h' : Reads .factor us ψ) :
    Splits (ts ++ .and :: us) fun v => ⟨(a v).before, (a v).last.both (ψ.value v)⟩ := by
  cases h with
  | product h => exact .product (.and h h')
  | or h h'' =>
    rw [List.append_assoc, List.cons_append]
    exact .or h (.and h'' h')

theorem Splits.either {ts us : List Token} {a : Assignment → Alternatives} (h : Splits ts a)
    {ψ : Formula} (h' : Reads .factor us ψ) :
    Splits (ts ++ .or :: us) fun v => ⟨(a v).value, ψ.value v⟩ := by
  obtain ⟨φ, hφ, hv⟩ := h.reads
  simp only [← hv]
  exact .or hφ (.factor h')

/-- The condition of a chain, and how it reads. -/
inductive Chained : Option Node → (Assignment → Option Alternatives) → Prop
  | empty : Chained none fun _ => none
  | node {n : Node} {a : Assignment → Alternatives} (hn : IsCondition n)
    (h : Splits n.tokens a) : Chained (some n) fun v => some (a v)

theorem Chained.step {c : Option Node} {a : Assignment → Option Alternatives} (h : Chained c a)
    (s : Step Filter) :
    Chained ((s.map Filter.node).condition c)
      fun v => (s.map (Filter.value v)).alternatives (a v) := by
  cases s with
  | clear => exact .empty
  | both f =>
    obtain ⟨hf, ψ, hψ, hv⟩ := f.means
    simp only [Step.map, ← hv]
    cases h with
    | empty => exact .node hf (.product (.factor hψ))
    | @node n a hn h =>
      refine .node (n := n.both f.node) (.both hn hf) ?_
      rw [Node.tokens_both]
      exact h.and hψ
  | either f =>
    obtain ⟨hf, ψ, hψ, hv⟩ := f.means
    simp only [Step.map, ← hv]
    cases h with
    | empty => exact .node hf (.product (.factor hψ))
    | @node n a hn h =>
      refine .node (n := n.either f.node) (.either hn hf) ?_
      rw [Node.tokens_either]
      exact h.either hψ

theorem Chained.steps {c : Option Node} {a : Assignment → Option Alternatives} (h : Chained c a)
    (ss : List (Step Filter)) :
    Chained ((ss.map (Step.map Filter.node)).foldl Step.condition c)
      fun v => (ss.map (Step.map (Filter.value v))).foldl Step.alternatives (a v) := by
  induction ss generalizing c a with
  | nil => exact h
  | cons s ss ih => exact ih (h.step s)

theorem Chained.isCondition {n : Node} {a : Assignment → Option Alternatives}
    (h : Chained (some n) a) : IsCondition n := by
  cases h with
  | node hn h => exact hn

/-- The clause of a condition that has one truth value, however it is read. -/
def HasTruth (v : Assignment) (clause : Node) (t : Truth) : Prop :=
  ∃ c, clause.condition? = some c ∧ (∃ φ, Reads .sum c.tokens φ) ∧
    ∀ φ, Reads .sum c.tokens φ → φ.value v = t

theorem HasTruth.eq {v : Assignment} {clause : Node} {t u : Truth} (h : HasTruth v clause t)
    (h' : HasTruth v clause u) : t = u := by
  obtain ⟨c, hc, ⟨φ, hφ⟩, ht⟩ := h
  obtain ⟨c', hc', -, hu⟩ := h'
  rw [hc] at hc'
  cases hc'
  rw [← ht φ hφ, hu φ hφ]

theorem HasTruth.rel_eq {v : Assignment} {clause : Option Node} {t u : Option Truth}
    (h : Option.Rel (HasTruth v) clause t) (h' : Option.Rel (HasTruth v) clause u) : t = u := by
  cases h with
  | none => cases h' with | none => rfl
  | some h => cases h' with | some h' => exact congrArg some (h.eq h')

theorem Chained.rel {c : Option Node} {a : Assignment → Option Alternatives} (h : Chained c a)
    {wrap : Node → Node} (hwrap : ∀ n, (wrap n).condition? = some n) (v : Assignment) :
    Option.Rel (HasTruth v) (c.map wrap) ((a v).map (·.value)) := by
  cases h with
  | empty => exact .none
  | @node n a hn h =>
    obtain ⟨φ, hφ, hv⟩ := h.reads
    refine .some ⟨n, hwrap n, ⟨φ, hφ⟩, fun ψ hψ => ?_⟩
    rw [hψ.value_eq, ← hφ.value_eq, hv]

end Condition

end SqlTree
