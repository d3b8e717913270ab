import SqlTree.Build.Expression
import SqlTree.Tree.Node

/-!
# Conditions as they are read

A condition is a row of comparisons with `and`, `or`, `not` and parentheses between them.  A reader
binds `not` tighter than `and` and `and` tighter than `or` (`Reads`).  Whatever it reads has the
value that is found from left to right with a stack of open parentheses (`Reads.value_eq`), so two
readings of one row never differ.
-/

namespace SqlTree.Condition

/-- Truth values of conditions on rows that may hold nulls. -/
inductive Truth where
  | no
  | unknown
  | yes
  deriving DecidableEq, Repr

namespace Truth

def both : Truth → Truth → Truth
  | .yes, t => t
  | .unknown, .no => .no
  | .unknown, _ => .unknown
  | .no, _ => .no

def either : Truth → Truth → Truth
  | .no, t => t
  | .unknown, .yes => .yes
  | .unknown, _ => .unknown
  | .yes, _ => .yes

def negation : Truth → Truth
  | .yes => .no
  | .unknown => .unknown
  | .no => .yes

@[simp] theorem both_yes (t : Truth) : t.both .yes = t := by cases t <;> rfl

@[simp] theorem yes_both (t : Truth) : both .yes t = t := rfl

@[simp] theorem no_either (t : Truth) : either .no t = t := rfl

@[simp] theorem either_no (t : Truth) : t.either .no = t := by cases t <;> rfl

@[simp] theorem negation_negation (t : Truth) : t.negation.negation = t := by cases t <;> rfl

theorem both_assoc (s t u : Truth) : (s.both t).both u = s.both (t.both u) := by
  cases s <;> cases t <;> cases u <;> rfl

theorem either_assoc (s t u : Truth) : (s.either t).either u = s.either (t.either u) := by
  cases s <;> cases t <;> cases u <;> rfl

end Truth

/-- A truth value for every comparison, the one with a known outcome included. -/
structure Assignment where
  truth : Node → Truth
  always : truth (.constantCondition true) = .yes
  never : truth (.constantCondition false) = .no

inductive Token where
  | comparison (n : Node)
  | and
  | or
  | not
  | opening
  | closing

inductive Formula where
  | comparison (n : Node)
  | both (f g : Formula)
  | either (f g : Formula)
  | negation (f : Formula)

def Formula.value (v : Assignment) : Formula → Truth
  | .comparison n => v.truth n
  | .both f g => (f.value v).both (g.value v)
  | .either f g => (f.value v).either (g.value v)
  | .negation f => (f.value v).negation

/-- How tight what is read binds. -/
inductive Level where
  | factor
  | product
  | sum

/-- What a row of tokens says: `not` binds tighter than `and`, and `and` tighter than `or`. -/
inductive Reads : Level → List Token → Formula → Prop
  | comparison (n : Node) : Reads .factor [.comparison n] (.comparison n)
  | parens {ts : List Token} {f : Formula} (h : Reads .sum ts f) :
    Reads .factor (.opening :: (ts ++ [.closing])) f
  | not {ts : List Token} {f : Formula} (h : Reads .factor ts f) :
    Reads .factor (.not :: ts) (.negation f)
  | factor {ts : List Token} {f : Formula} (h : Reads .factor ts f) : Reads .product ts f
  | and {ts us : List Token} {f g : Formula} (h : Reads .product ts f) (h' : Reads .factor us g) :
    Reads .product (ts ++ .and :: us) (.both f g)
  | product {ts : List Token} {f : Formula} (h : Reads .product ts f) : Reads .sum ts f
  | or {ts us : List Token} {f g : Formula} (h : Reads .sum ts f) (h' : Reads .product us g) :
    Reads .sum (ts ++ .or :: us) (.either f g)

/-- What was read since a parenthesis was opened: the alternatives that are complete, the one at
hand, and whether what comes next is negated. -/
structure Frame where
  sum : Truth := .no
  product : Truth := .yes
  negated : Bool := false

namespace Frame

def value (f : Frame) : Truth := f.sum.either f.product

def take (f : Frame) (t : Truth) : Frame :=
  { f with product := f.product.both (if f.negated then t.negation else t), negated := false }

end Frame

def advance (v : Assignment) : List Frame → Token → List Frame
  | f :: fs, .comparison n => f.take (v.truth n) :: fs
  | f :: fs, .or => { sum := f.value } :: fs
  | f :: fs, .not => { f with negated := !f.negated } :: fs
  | fs, .opening => {} :: fs
  | f :: g :: fs, .closing => g.take f.value :: fs
  | fs, _ => fs

def run (v : Assignment) (fs : List Frame) (ts : List Token) : List Frame :=
  ts.foldl (advance v) fs

theorem run_append (v : Assignment) (fs : List Frame) (ts us : List Token) :
    run v fs (ts ++ us) = run v (run v fs ts) us := List.foldl_append

theorem run_cons (v : Assignment) (fs : List Frame) (t : Token) (ts : List Token) :
    run v fs (t :: ts) = run v (advance v fs t) ts := rfl

/-- What reading tokens of a value does to the innermost frame. -/
def Runs (v : Assignment) (ts : List Token) (t : Truth) : Level → Prop
  | .factor => ∀ f fs, run v (f :: fs) ts = f.take t :: fs
  | .product => ∀ f fs, f.negated = false →
    run v (f :: fs) ts = { f with product := f.product.both t } :: fs
  | .sum => ∀ f fs, f.negated = false → f.product = .yes →
    ∃ g, run v (f :: fs) ts = g :: fs ∧ g.negated = false ∧ g.value = f.sum.either t

theorem take_of_not_negated {f : Frame} (h : f.negated = false) (t : Truth) :
    f.take t = { f with product := f.product.both t } := by
  simp [Frame.take, h]

theorem Reads.runs (v : Assignment) {level : Level} {ts : List Token} {φ : Formula}
    (h : Reads level ts φ) : Runs v ts (φ.value v) level := by
  induction h with
  | comparison n => exact fun f fs => rfl
  | @parens ts φ h ih =>
    intro f fs
    obtain ⟨g, hrun, -, hvalue⟩ := ih {} (f :: fs) rfl rfl
    rw [Truth.no_either] at hvalue
    rw [run_cons, run_append]
    show run v (run v ({} :: f :: fs) ts) [.closing] = _
    rw [hrun, ← hvalue]
    rfl
  | @not ts φ h ih =>
    intro f fs
    rw [run_cons]
    show run v ({ f with negated := !f.negated } :: fs) ts = _
    rw [ih]
    cases hf : f.negated <;> simp [Frame.take, Formula.value, hf]
  | factor h ih =>
    intro f fs hf
    rw [ih, take_of_not_negated hf]
  | @and ts us φ ψ h h' ih ih' =>
    intro f fs hf
    rw [run_append, ih f fs hf, run_cons]
    show run v ({ f with product := f.product.both (φ.value v) } :: fs) us = _
    rw [ih', take_of_not_negated (by exact hf), Formula.value, ← Truth.both_assoc]
  | product h ih =>
    intro f fs hf hp
    exact ⟨_, ih f fs hf, hf, by simp [Frame.value, hp]⟩
  | @or ts us φ ψ h h' ih ih' =>
    intro f fs hf hp
    obtain ⟨g, hrun, -, hvalue⟩ := ih f fs hf hp
    rw [run_append, hrun, run_cons]
    refine ⟨_, ih' { sum := g.value } fs rfl, rfl, ?_⟩
    show g.value.either (Truth.both .yes (ψ.value v)) = _
    rw [hvalue, Truth.yes_both, Truth.either_assoc]
    rfl

/-- The value of a row of tokens, found from left to right. -/
def value (v : Assignment) (ts : List Token) : Truth :=
  match run v [{}] ts with
  | f :: _ => f.value
  | [] => .unknown

/-- Every reading has the value that is found from left to right. -/
theorem Reads.value_eq (v : Assignment) {ts : List Token} {φ : Formula} (h : Reads .sum ts φ) :
    φ.value v = Condition.value v ts := by
  obtain ⟨g, hrun, -, hvalue⟩ := h.runs v {} [] rfl rfl
  rw [Condition.value, hrun]
  exact hvalue.symm

end SqlTree.Condition
