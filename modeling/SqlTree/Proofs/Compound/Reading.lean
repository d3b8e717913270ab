import SqlTree.Proofs.Compound.Rows

/-!
# Compound selects as they are read

A compound select is a row of select cores with set operations and parentheses between them.  A
reader binds intersections tighter than unions and differences, takes operations of one tightness
from the left, and gives the clauses around a query to all of it (`Reads`).  A row of tokens has at
most one reading (`Reads.unique`): the one that is found from left to right with a stack of open
parentheses.
-/

namespace SqlTree.Compound

/-- A select without any clause that is about the whole of a compound. -/
structure Bare (p : Select Node) : Prop where
  explain : p.explain = none
  withClause : p.withClause = none
  orderBy : p.orderBy = none
  limit : p.limit = none
  offset : p.offset = none
  fetch : p.fetch = none
  endModifiers : p.endModifiers = []

/-- A single select. -/
structure Core where
  select : Select Node
  bare : Bare select
  setOperations : select.setOperations = []

instance : Inhabited Core := ⟨⟨{}, ⟨rfl, rfl, rfl, rfl, rfl, rfl, rfl⟩, rfl⟩⟩

def Core.ofTable (table : String) : Core :=
  ⟨.allOf table, ⟨rfl, rfl, rfl, rfl, rfl, rfl, rfl⟩, rfl⟩

theorem Core.ofTable_injective : Function.Injective Core.ofTable := by
  intro a b h
  simpa [ofTable, Select.allOf, Select.begin, Select.selectAll, Select.selectNodes, Node.table,
    Node.schemable, Node.identifier] using congrArg (fun c => c.select.fromClause) h

inductive Token where
  | core (c : Core)
  | operation (o : Combination)
  | opening
  | closing
  /-- A clause in front of a query. -/
  | before (n : Node)
  /-- A clause at the end of a query. -/
  | after (n : Node)

inductive Formula where
  | core (c : Core)
  | combined (o : Combination) (f g : Formula)
  /-- A query with the clauses in front of it and at its end. -/
  | query (before after : List Node) (f : Formula)
  deriving Inhabited

/-- The rows of all cores, and what the clauses around a query make of its rows. -/
structure Assignment (Row : Type) [DecidableEq Row] where
  core : Core → Multiset Row
  window : List Node → List Node → Multiset Row → List Row
  coe_window_nil : ∀ s, (window [] [] s : Multiset Row) = s

namespace Formula

variable {Row : Type} [DecidableEq Row] (v : Assignment Row)

def rows : Formula → Multiset Row
  | .core c => v.core c
  | .combined o f g => o.rows f.rows g.rows
  | .query before after f => v.window before after f.rows

/-- The rows in the order in which a query gives them. -/
def answer : Formula → List Row
  | .query before after f => v.window before after (f.rows v)
  | f => v.window [] [] (f.rows v)

end Formula

/-- How tight what is read binds. -/
inductive Level where
  | operand
  | product
  | sum
  | query

/-- What a row of tokens says. -/
inductive Reads : Level → List Token → Formula → Prop
  | core (c : Core) : Reads .operand [.core c] (.core c)
  | parens {ts : List Token} {f : Formula} (h : Reads .query ts f) :
    Reads .operand (.opening :: (ts ++ [.closing])) f
  | operand {ts : List Token} {f : Formula} (h : Reads .operand ts f) : Reads .product ts f
  | intersect {ts us : List Token} {f g : Formula} (all : Bool) (h : Reads .product ts f)
    (h' : Reads .operand us g) :
    Reads .product (ts ++ .operation ⟨.intersect, all⟩ :: us) (.combined ⟨.intersect, all⟩ f g)
  | product {ts : List Token} {f : Formula} (h : Reads .product ts f) : Reads .sum ts f
  | combined {ts us : List Token} {f g : Formula} {o : Combination} (ho : o.operator ≠ .intersect)
    (h : Reads .sum ts f) (h' : Reads .product us g) :
    Reads .sum (ts ++ .operation o :: us) (.combined o f g)
  | query {ts : List Token} {f : Formula} (before after : List Node) (h : Reads .sum ts f) :
    Reads .query (before.map .before ++ ts ++ after.map .after) (.query before after f)

/-- What was read since a parenthesis was opened: the clauses in front, what the next product is
to be added to, what the next operand is to be intersected with, the last product, and the clauses
at the end. -/
structure Frame where
  before : List Node := []
  sum : Formula → Formula := id
  product : Formula → Formula := id
  last : Formula := default
  after : List Node := []

namespace Frame

def take (r : Frame) (f : Formula) : Frame := { r with last := r.product f }

def query (r : Frame) : Formula := .query r.before r.after (r.sum r.last)

def operation (r : Frame) (o : Combination) : Frame :=
  if o.operator = .intersect then { r with product := .combined o r.last }
  else { r with sum := .combined o (r.sum r.last), product := id }

end Frame

def advance : List Frame → Token → List Frame
  | r :: rs, .core c => r.take (.core c) :: rs
  | r :: rs, .operation o => r.operation o :: rs
  | rs, .opening => {} :: rs
  | r :: r' :: rs, .closing => r'.take r.query :: rs
  | r :: rs, .before n => { r with before := r.before ++ [n] } :: rs
  | r :: rs, .after n => { r with after := r.after ++ [n] } :: rs
  | rs, _ => rs

def run (rs : List Frame) (ts : List Token) : List Frame := ts.foldl advance rs

theorem run_append (rs : List Frame) (ts us : List Token) :
    run rs (ts ++ us) = run (run rs ts) us := List.foldl_append

theorem run_cons (rs : List Frame) (t : Token) (ts : List Token) :
    run rs (t :: ts) = run (advance rs t) ts := rfl

theorem run_before (r : Frame) (rs : List Frame) (ns : List Node) :
    run (r :: rs) (ns.map .before) = { r with before := r.before ++ ns } :: rs := by
  induction ns generalizing r with
  | nil => simp [run]
  | cons n ns ih =>
    rw [List.map_cons, run_cons]
    show run ({ r with before := r.before ++ [n] } :: rs) _ = _
    rw [ih]
    simp

theorem run_after (r : Frame) (rs : List Frame) (ns : List Node) :
    run (r :: rs) (ns.map .after) = { r with after := r.after ++ ns } :: rs := by
  induction ns generalizing r with
  | nil => simp [run]
  | cons n ns ih =>
    rw [List.map_cons, run_cons]
    show run ({ r with after := r.after ++ [n] } :: rs) _ = _
    rw [ih]
    simp

/-- What reading tokens of a formula does to the innermost frame. -/
def Runs (ts : List Token) (f : Formula) : Level → Prop
  | .operand => ∀ r rs, run (r :: rs) ts = r.take f :: rs
  | .product => ∀ r rs, r.product = id →
    ∃ p, run (r :: rs) ts = { r with product := p, last := f } :: rs
  | .sum => ∀ r rs, r.product = id → r.sum = id →
    ∃ s p l, run (r :: rs) ts = { r with sum := s, product := p, last := l } :: rs ∧ s l = f
  | .query => ∀ rs, ∃ r, run ({} :: rs) ts = r :: rs ∧ r.query = f

theorem Reads.runs {level : Level} {ts : List Token} {f : Formula} (h : Reads level ts f) :
    Runs ts f level := by
  induction h with
  | core c => exact fun r rs => rfl
  | @parens ts f h ih =>
    intro r rs
    obtain ⟨r', hrun, hquery⟩ := ih (r :: rs)
    rw [run_cons, run_append]
    show run (run ({} :: r :: rs) ts) [.closing] = _
    rw [hrun, ← hquery]
    rfl
  | @operand ts f h ih =>
    intro r rs hp
    refine ⟨r.product, ?_⟩
    rw [ih, Frame.take, hp]
    rfl
  | @intersect ts us f g all h h' ih ih' =>
    intro r rs hp
    obtain ⟨p, hrun⟩ := ih r rs hp
    rw [run_append, hrun, run_cons]
    exact ⟨_, ih' _ rs⟩
  | @product ts f h ih =>
    intro r rs hp hs
    obtain ⟨p, hrun⟩ := ih r rs hp
    exact ⟨r.sum, p, f, hrun, congrFun hs f⟩
  | @combined ts us f g o ho h h' ih ih' =>
    intro r rs hp hs
    obtain ⟨s, p, l, hrun, hl⟩ := ih r rs hp hs
    rw [run_append, hrun, run_cons]
    have hstep : ∀ r : Frame, advance (r :: rs) (.operation o) =
        { r with sum := .combined o (r.sum r.last), product := id } :: rs := by
      intro r
      show r.operation o :: rs = _
      rw [Frame.operation, if_neg ho]
    rw [hstep]
    obtain ⟨p', hrun'⟩ := ih' { r with sum := .combined o (s l), product := id, last := l } rs rfl
    exact ⟨_, p', g, hrun', by rw [hl]⟩
  | @query ts f before after h ih =>
    intro rs
    obtain ⟨s, p, l, hrun, hl⟩ := ih { before := before } rs rfl rfl
    refine ⟨{ before := before, sum := s, product := p, last := l, after := after }, ?_, ?_⟩
    · rw [run_append, run_append, run_before]
      show run (run ({ before := before } :: rs) ts) _ = _
      rw [hrun, run_after]
      rfl
    · rw [← hl]
      rfl

/-- A row of tokens is read in one way. -/
theorem Reads.unique {ts : List Token} {f g : Formula} (h : Reads .query ts f)
    (h' : Reads .query ts g) : f = g := by
  obtain ⟨r, hrun, hf⟩ := h.runs []
  obtain ⟨r', hrun', hg⟩ := h'.runs []
  rw [hrun] at hrun'
  cases hrun'
  exact hf.symm.trans hg

end SqlTree.Compound
