import Mathlib.Algebra.Field.Defs
import SqlTree.Proofs.Expression.Precedence
import SqlTree.Proofs.Pass.Recompiling
import SqlTree.Proofs.Read.Names
import SqlTree.Proofs.Render.Comments
import SqlTree.Proofs.Render.Refusal
import SqlTree.Proofs.Render.Shared

/-!
# Nested operations

Sums, differences, products, quotients and negatives of references and values, as callers nest them.
They have the values of their operations, and they are written word by word, without parentheses
of their own (`Arithmetic.compile_node`).
-/

namespace SqlTree

namespace Expression

inductive Operation where
  | add
  | sub
  | mul
  | div
  deriving DecidableEq

namespace Operation

def operator : Operation → Operator
  | .add => .add
  | .sub => .sub
  | .mul => .mul
  | .div => .div

/-- How loose an operation binds. -/
def level : Operation → Nat
  | .add => 3
  | .sub => 3
  | .mul => 2
  | .div => 2

def joint (o : Operation) : Joint := .operator o.operator

def ofJoint? : Joint → Option Operation
  | .operator .add => some .add
  | .operator .sub => some .sub
  | .operator .mul => some .mul
  | .operator .div => some .div
  | _ => none

variable (o : Operation)

@[simp] theorem ofJoint?_joint : ofJoint? o.joint = some o := by
  cases o <;> rfl

@[simp] theorem level?_joint : o.joint.level? = some o.level := by
  cases o <;> rfl

theorem one_lt_level : 1 < o.level := by
  cases o <;> decide

theorem level_le : o.level ≤ 3 := by
  cases o <;> decide

variable {K : Type} [DivisionRing K] [DecidableEq K]

def value (a b : K) : Operation → Option K
  | .add => some (a + b)
  | .sub => some (a - b)
  | .mul => some (a * b)
  | .div => if b = 0 then none else some (a / b)

/-- The value of an operation, where both of its operands have one. -/
def apply (x y : Option K) : Option K := x.bind fun a => y.bind fun b => o.value a b

end Operation

/-- The value of a formula, for given values of the operands. -/
def Formula.value {K : Type} [DivisionRing K] [DecidableEq K] (ρ : Node → Option K) :
    Formula → Option K
  | .operand n => ρ n
  | .parens f => f.value ρ
  | .signed .minus f => (f.value ρ).map Neg.neg
  | .signed .not _ => none
  | .joined j f g => (Operation.ofJoint? j).bind fun o => o.apply (f.value ρ) (g.value ρ)

/-- References and values, as callers give them; a value is bound or written. -/
inductive Atom where
  | reference {input : String} {n : Node} (h : Read.reference input = .ok n)
  | bound (v : Value)
  | literal (v : Value)

namespace Atom

def operand : Atom → Operand
  | @reference _ n _ => .node n
  | .bound v => .value v
  | .literal v => .node (.literal v)

def node (a : Atom) : Node := a.operand.bound

end Atom

/-- Nested operations on references and values. -/
inductive Arithmetic where
  | atom (a : Atom)
  | joined (o : Operation) (l r : Arithmetic)
  | negative (e : Arithmetic)
  | parens (e : Arithmetic)

namespace Arithmetic

/-- What stands on the right of an operation. -/
def operand (e : Arithmetic) (n : Node) : Operand :=
  match e with
  | .atom a => a.operand
  | _ => .node n

def built : Arithmetic → Except Error Node
  | .atom a => .ok a.node
  | .joined o l r => do
    let left ← l.built
    let right ← r.built
    left.compare o.operator.symbol (r.operand right)
  | .negative e => return .unary .negate (← e.built)
  | .parens e => return (← e.built).parens

def node : Arithmetic → Node
  | .atom a => a.node
  | .joined o l r => .binary l.node o.operator r.node
  | .negative e => .unary .negate e.node
  | .parens e => e.node.parens

theorem compare_operand (o : Operation) (n : Node) (e : Arithmetic) :
    n.compare o.operator.symbol (e.operand e.node) = .ok (.binary n o.operator e.node) := by
  have hread : Operator.readBinary o.operator.symbol = .ok o.operator := by cases o <;> rfl
  have hcomparison : n.comparison o.operator (e.operand e.node) =
      .binary n o.operator (e.operand e.node).bound := by
    cases o <;> simp [Node.comparison, Operator.against, Operation.operator, Operator.isTest,
      Operator.isEquality, Operator.isInequality]
  have hbound : (e.operand e.node).bound = e.node := by
    cases e <;> rfl
  rw [Node.compare, hread]
  show Except.ok (n.comparison _ _) = _
  rw [hcomparison, hbound]

theorem built_eq_node (e : Arithmetic) : e.built = .ok e.node := by
  induction e with
  | atom a => rfl
  | joined o l r ihl ihr =>
    rw [built, ihl, ihr, node, ← compare_operand]
    simp only [bind, Except.bind]
  | negative e ih =>
    rw [built, ih]
    rfl
  | parens e ih =>
    rw [built, ih]
    rfl

/-- The formula that a tree stands for. -/
def formula : Arithmetic → Formula
  | .atom a => .operand a.node
  | .joined o l r => .joined o.joint l.formula r.formula
  | .negative e => .signed .minus e.formula
  | .parens e => .parens e.formula

/-- The words as which a tree is written. -/
def spans : Arithmetic → List Span
  | .atom a => [.operand none a.node]
  | .joined o l r => l.spans ++ .joint o.joint :: r.spans
  | .negative e => .sign .minus :: e.spans
  | .parens e => .opening :: (e.spans ++ [.closing])

theorem words_formula (e : Arithmetic) : e.formula.words = e.spans.map Span.word := by
  induction e with
  | atom a => rfl
  | joined o l r ihl ihr =>
    rw [formula, Formula.words, ihl, ihr, spans, List.map_append, List.map_cons]
    rfl
  | negative e ih =>
    rw [formula, Formula.words, ih]
    rfl
  | parens e ih =>
    rw [formula, Formula.words, ih, spans, List.map_cons, List.map_append]
    rfl

section Value

variable {K : Type} [DivisionRing K] [DecidableEq K] (ρ : Node → Option K)

/-- The value of a tree, for given values of the references. -/
def value : Arithmetic → Option K
  | .atom a => ρ a.node
  | .joined o l r => o.apply l.value r.value
  | .negative e => e.value.map Neg.neg
  | .parens e => e.value

theorem value_formula (e : Arithmetic) : e.formula.value ρ = e.value ρ := by
  induction e with
  | atom a => rfl
  | joined o l r ihl ihr =>
    rw [formula, Formula.value, Operation.ofJoint?_joint, Option.bind_some, ihl, ihr, value]
  | negative e ih => rw [formula, Formula.value, ih, value]
  | parens e ih => rw [formula, Formula.value, ih, value]

end Value

end Arithmetic

end Expression

/-- What is true of names. -/
theorem Shape.plain_of_isName {s : Shape Node} (h : s.isName = true) :
    (s.kind ≠ .selectQuery ∧ s.kind ≠ .binaryOperation) ∧ s.kind ≠ .raw ∧ s.verbatims = [] ∧
      s.shared = true := by
  cases s with
  | identifier _ => exact ⟨⟨nofun, nofun⟩, nofun, rfl, rfl⟩
  | schemableIdentifier _ _ => exact ⟨⟨nofun, nofun⟩, nofun, rfl, rfl⟩
  | table _ => exact ⟨⟨nofun, nofun⟩, nofun, rfl, rfl⟩
  | column _ => exact ⟨⟨nofun, nofun⟩, nofun, rfl, rfl⟩
  | selectAll => exact ⟨⟨nofun, nofun⟩, nofun, rfl, rfl⟩
  | reference _ _ => exact ⟨⟨nofun, nofun⟩, nofun, rfl, rfl⟩
  | _ => cases h

namespace Node

/-- A name is written alike wherever it stands. -/
theorem OfNames.piecesIn {n : Node} (h : n.OfNames) (d : Dialect) (parent : Option Kind) :
    n.piecesIn d parent = n.pieces d := by
  obtain ⟨s⟩ := n
  obtain ⟨⟨-, hs⟩, -⟩ := every_mk.mp h
  rw [pieces, piecesIn_mk, piecesIn_mk, Shape.map_eq_each]
  cases s with
  | identifier _ => rfl
  | schemableIdentifier _ _ => rfl
  | table _ => rfl
  | column _ => rfl
  | selectAll => rfl
  | reference _ _ => rfl
  | _ => cases hs

theorem OfNames.refusal? {n : Node} (h : n.OfNames) (d : Dialect) : n.refusal? d = none := by
  have hshared : n.Every fun s => s.shared = true :=
    h.imp fun s hs => (Shape.plain_of_isName hs.2).2.2.2
  rw [Node.refusal?, pieces, piecesIn_shared d .postgres hshared]
  exact Piece.refusal?_shared (isShared_piecesIn hshared none)

theorem OfNames.settled {n : Node} (h : n.OfNames) (V : String → Prop) :
    n.Every (Shape.Settled V) := by
  refine h.imp fun s hs => ?_
  obtain ⟨-, hraw, hverbatims, -⟩ := Shape.plain_of_isName hs.2
  exact ⟨hs.1, fun h => absurd h hraw, by simp [hverbatims]⟩

theorem OfNames.unchanged {n : Node} (h : n.OfNames) (d : Dialect) : n.Unchanged d.adapt :=
  unchanged_adapt d (h.imp fun _ hs => (Shape.plain_of_isName hs.2).1)

end Node

namespace Expression

namespace Atom

variable (a : Atom) (d : Dialect)

theorem piecesIn_node (parent : Option Kind) : a.node.piecesIn d parent = a.node.pieces d := by
  cases a with
  | reference h => exact (Read.ofNames_reference h).piecesIn d parent
  | bound v => rfl
  | literal v => rfl

theorem refusal?_node : a.node.refusal? d = none := by
  cases a with
  | reference h => exact (Read.ofNames_reference h).refusal? d
  | bound v => rfl
  | literal v => rfl

theorem settled_node (V : String → Prop) : a.node.Every (Shape.Settled V) := by
  have hvalue : ∀ v immediate, Node.Every (Shape.Settled V) ⟨.value v immediate⟩ := fun v b =>
    (Node.settled_mk_iff rfl rfl).mpr (List.forall_mem_nil _)
  cases a with
  | reference h => exact (Read.ofNames_reference h).settled V
  | bound v => exact hvalue v false
  | literal v => exact hvalue v true

theorem unchanged_node : a.node.Unchanged d.adapt := by
  have hvalue : ∀ v immediate, Node.Unchanged d.adapt ⟨.value v immediate⟩ := fun v b =>
    Node.unchanged_iff.mpr ⟨d.adapt_eq_self nofun nofun, List.forall_mem_nil _⟩
  cases a with
  | reference h => exact (Read.ofNames_reference h).unchanged d
  | bound v => exact hvalue v false
  | literal v => exact hvalue v true

end Atom

namespace Arithmetic

variable (e : Arithmetic) (d : Dialect)

/-- A tree is written word by word. -/
theorem piecesIn_node (parent : Option Kind) :
    e.node.piecesIn d parent = e.spans.flatMap (Span.pieces d) := by
  induction e generalizing parent with
  | atom a =>
    rw [spans, List.flatMap_singleton]
    exact a.piecesIn_node d parent
  | joined o l r ihl ihr =>
    rw [node, Span.pieces_binary, ihl, ihr, spans, List.flatMap_append, List.flatMap_cons]
    rfl
  | negative e ih =>
    rw [spans, List.flatMap_cons, ← ih (some .unaryOperation)]
    exact Node.piecesIn_negation ..
  | parens e ih =>
    rw [spans, List.flatMap_cons, List.flatMap_append, List.flatMap_singleton,
      ← ih (some .parens), node, Node.parens, Node.piecesIn_mk, Shape.map_eq_each,
      ← List.append_assoc]
    rfl

theorem refusal?_spans : Piece.refusal? (e.spans.flatMap (Span.pieces d)) = none := by
  induction e with
  | atom a =>
    rw [spans, List.flatMap_singleton]
    exact a.refusal?_node d
  | joined o l r ihl ihr =>
    rw [spans, List.flatMap_append, List.flatMap_cons, Piece.refusal?_append,
      Piece.refusal?_append, ihl, ihr]
    rfl
  | negative e ih => exact ih
  | parens e ih =>
    rw [spans, List.flatMap_cons, List.flatMap_append, Piece.refusal?_append,
      Piece.refusal?_append, ih]
    rfl

theorem settled_node (V : String → Prop) : e.node.Every (Shape.Settled V) := by
  have hoperator : ∀ o, Node.Every (Shape.Settled V) ⟨.operator o⟩ := fun o =>
    (Node.settled_mk_iff rfl rfl).mpr (List.forall_mem_nil _)
  induction e with
  | atom a => exact a.settled_node V
  | joined o l r ihl ihr =>
    refine (Node.settled_mk_iff rfl rfl).mpr (List.forall_mem_cons.mpr ⟨⟨rfl, ihl⟩, ?_⟩)
    exact List.forall_mem_cons.mpr
      ⟨⟨rfl, hoperator _⟩, List.forall_mem_singleton.mpr ⟨rfl, ihr⟩⟩
  | negative e ih =>
    exact (Node.settled_mk_iff rfl rfl).mpr (List.forall_mem_cons.mpr
      ⟨⟨rfl, hoperator _⟩, List.forall_mem_singleton.mpr ⟨rfl, ih⟩⟩)
  | parens e ih =>
    exact (Node.settled_mk_iff rfl rfl).mpr (List.forall_mem_singleton.mpr ⟨rfl, ih⟩)

theorem unchanged_node : e.node.Unchanged d.adapt := by
  have hoperator : ∀ o, Node.Unchanged d.adapt ⟨.operator o⟩ := fun o =>
    Node.unchanged_iff.mpr ⟨d.adapt_eq_self nofun nofun, List.forall_mem_nil _⟩
  induction e with
  | atom a => exact a.unchanged_node d
  | joined o l r ihl ihr =>
    have htest : ¬ Node.IsTest (.binary l.node o.operator r.node) := by
      intro h
      obtain ⟨⟨o', ho', hbit⟩, -⟩ := Node.isTest_binaryOperation.mp h
      cases ho'
      cases o <;> cases hbit
    exact Node.unchanged_iff.mpr ⟨d.adapt_of_not_isTest nofun htest, List.forall_mem_cons.mpr
      ⟨ihl, List.forall_mem_cons.mpr ⟨hoperator _, List.forall_mem_singleton.mpr ihr⟩⟩⟩
  | negative e ih =>
    exact Node.unchanged_iff.mpr ⟨d.adapt_eq_self nofun nofun,
      List.forall_mem_cons.mpr ⟨hoperator _, List.forall_mem_singleton.mpr ih⟩⟩
  | parens e ih =>
    exact Node.unchanged_iff.mpr
      ⟨d.adapt_eq_self nofun nofun, List.forall_mem_singleton.mpr ih⟩

/-- A tree is compiled to its words, and no comment starts in them where no sign opens one. -/
theorem compile_node (h : ¬ Piece.SignBeforeHyphen d (e.node.pieces d)) :
    ∃ c ls, e.node.compile d = .ok c ∧
      c.sql = Piece.sql d (e.spans.flatMap (Span.pieces d)) ∧ d.lexemes? c.sql = some ls ∧
      ¬ [.bare '-', .bare '-'] <:+: ls ∧ ¬ [.bare '/', .bare '*'] <:+: ls := by
  have hw : e.node.wellFormed = true :=
    Node.every_fits_iff.mp ((e.settled_node CommentFree).imp fun _ hs => hs.fits)
  have hself : e.node.rewrite d.adapt = e.node := Node.rewrite_of_unchanged (e.unchanged_node d)
  have hpieces : e.node.pieces d = e.spans.flatMap (Span.pieces d) := e.piecesIn_node d none
  obtain ⟨ls, hls, hasterisk, hhyphens⟩ :=
    Node.commented_pieces (d := d) (e.settled_node CommentFree)
  have hok := Node.compile_of_no_refusal (d := d) hw (by
    rw [hself, hpieces]
    exact e.refusal?_spans d)
  rw [hself] at hok
  exact ⟨_, ls, hok, by rw [hpieces], hls, fun hcomment => h (hhyphens.mp hcomment), hasterisk⟩

end Arithmetic

end Expression

end SqlTree
