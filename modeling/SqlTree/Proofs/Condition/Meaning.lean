import SqlTree.Proofs.Condition.Filter
import SqlTree.Proofs.Expression.Precedence
import SqlTree.Proofs.Pass.Recompiling
import SqlTree.Proofs.Render.Refusal

/-!
# Filters that mean what they say

Conjunctions, disjunctions and negations of comparisons are read by one precedence with the
operators of the comparisons themselves; the operands, such as the bounds of `between`, are read as
they are.  The one reading of such a text is tight enough to stand anywhere a condition stands, and
its value is that of the filter, for every outcome of the comparisons
(`Filter.means_what_it_says`).
-/

namespace SqlTree

open Expression

namespace Condition

/-- The words of a comparison; with an operator that dialects bind differently, it is read as a
whole. -/
def comparisonSpans (n : Node) : List Span :=
  match n with
  | ⟨.binaryOperation l ⟨.operator o⟩ r⟩ =>
    if o ∈ Operator.comparisons then
      [.operand (some .binaryOperation) l, .joint (.operator o), .operand (some .binaryOperation) r]
    else [.operand none n]
  | n => [.operand none n]

/-- The words of a token, where a dialect has adapted the comparisons. -/
def Token.spans (d : Dialect) : Token → List Span
  | .comparison n => comparisonSpans (n.rewrite d.adapt)
  | .and => [.joint .and]
  | .or => [.joint .or]
  | .not => [.sign .not]
  | .opening => [.opening]
  | .closing => [.closing]

theorem flatMap_comparisonSpans (d : Dialect) (n : Node) :
    (comparisonSpans n).flatMap (Span.pieces d) = n.pieces d := by
  unfold comparisonSpans
  split
  · rename_i l o r
    split
    · rw [Node.pieces, ← Node.binary, Span.pieces_binary]
      simp only [List.flatMap_cons, List.flatMap_nil, List.append_nil]
      rfl
    · exact List.flatMap_singleton _ _
  · exact List.flatMap_singleton _ _

theorem Token.flatMap_spans (d : Dialect) (t : Token) :
    (t.spans d).flatMap (Span.pieces d) = t.pieces d := by
  cases t with
  | comparison n => exact flatMap_comparisonSpans d _
  | _ => simp [spans, Span.pieces, pieces]

theorem rewrite_constantCondition (d : Dialect) (b : Bool) :
    (Node.constantCondition b).rewrite d.adapt = .constantCondition b := by
  refine Node.rewrite_of_unchanged (Node.unchanged_iff.mpr ⟨by cases d <;> rfl, ?_⟩)
  refine List.forall_mem_cons.mpr ⟨?_, List.forall_mem_cons.mpr ⟨?_, ?_⟩⟩
  on_goal 3 => refine List.forall_mem_singleton.mpr ?_
  all_goals exact Node.unchanged_iff.mpr ⟨d.adapt_eq_self nofun nofun, List.forall_mem_nil _⟩

/-- The outcomes of comparisons before a dialect adapts them. -/
def Assignment.before (v : Assignment) (d : Dialect) : Assignment where
  truth n := v.truth (n.rewrite d.adapt)
  always := by rw [rewrite_constantCondition, v.always]
  never := by rw [rewrite_constantCondition, v.never]

end Condition

namespace Expression

/-- The truth value of a condition, for given outcomes of the comparisons. -/
def Formula.truth (v : Condition.Assignment) : Formula → Condition.Truth
  | .operand n => v.truth n
  | .parens f => f.truth v
  | .signed .not f => (f.truth v).negation
  | .joined .and f g => (f.truth v).both (g.truth v)
  | .joined .or f g => (f.truth v).either (g.truth v)
  | .joined (.operator o) (.operand l) (.operand r) => v.truth (.binary l o r)
  | _ => .unknown

end Expression

namespace Condition

def Level.looseness : Level → Nat
  | .factor => 5
  | .product => 6
  | .sum => 7

/-- What is read as what, with the truth value that a condition has. -/
def Says (k : Nat) (ms : List Span) (t : Assignment → Truth) : Prop :=
  ∃ φ, Expression.Reads k (ms.map Span.word) φ ∧ ∀ v, φ.truth v = t v

theorem says_whole (n : Node) : Says Sign.not.level [.operand none n] fun v => v.truth n :=
  ⟨.operand n, (Expression.Reads.operand n).mono (Nat.zero_le _), fun _ => rfl⟩

theorem says_comparison (n : Node) :
    Says Sign.not.level (comparisonSpans n) fun v => v.truth n := by
  unfold comparisonSpans
  split
  · rename_i l o r
    split
    · rename_i ho
      have hlevel : (Joint.operator o).level? = some 4 := by
        cases o <;> first | rfl | exact absurd ho (by decide)
      refine ⟨.joined (.operator o) (.operand l) (.operand r), ?_, fun _ => rfl⟩
      exact .looser (.joined hlevel ((Expression.Reads.operand l).mono (Nat.zero_le _))
        ((Expression.Reads.operand r).mono (Nat.zero_le _)))
    · exact says_whole _
  · exact says_whole _

namespace Says

variable {k m : Nat} {ms ms' : List Span} {s t : Assignment → Truth}

theorem mono (h : Says k ms t) (hkm : k ≤ m) : Says m ms t := by
  obtain ⟨φ, hφ, ht⟩ := h
  exact ⟨φ, hφ.mono hkm, ht⟩

theorem parens (h : Says loosest ms t) :
    Says Sign.not.level (.opening :: (ms ++ [.closing])) t := by
  obtain ⟨φ, hφ, ht⟩ := h
  refine ⟨.parens φ, ?_, ht⟩
  rw [List.map_cons, List.map_append]
  exact (Expression.Reads.parens hφ).mono (Nat.zero_le _)

theorem not (h : Says Sign.not.level ms t) :
    Says Sign.not.level (.sign .not :: ms) fun v => (t v).negation := by
  obtain ⟨φ, hφ, ht⟩ := h
  exact ⟨.signed .not φ, .signed rfl hφ, fun v => congrArg Truth.negation (ht v)⟩

theorem joined {j : Joint} (hj : j.level? = some (k + 1)) {c : Truth → Truth → Truth}
    (hc : ∀ v φ ψ, (Expression.Formula.joined j φ ψ).truth v = c (φ.truth v) (ψ.truth v))
    (h : Says (k + 1) ms s) (h' : Says k ms' t) :
    Says (k + 1) (ms ++ .joint j :: ms') fun v => c (s v) (t v) := by
  obtain ⟨φ, hφ, hs⟩ := h
  obtain ⟨ψ, hψ, ht⟩ := h'
  refine ⟨.joined j φ ψ, ?_, fun v => by rw [hc, hs, ht]⟩
  rw [List.map_append, List.map_cons]
  exact .joined hj hφ hψ

theorem and (h : Says 6 ms s) (h' : Says 5 ms' t) :
    Says 6 (ms ++ .joint .and :: ms') fun v => (s v).both (t v) :=
  joined rfl (fun _ _ _ => rfl) h h'

theorem or (h : Says 7 ms s) (h' : Says 6 ms' t) :
    Says 7 (ms ++ .joint .or :: ms') fun v => (s v).either (t v) :=
  joined rfl (fun _ _ _ => rfl) h h'

end Says

/-- What is read with its comparisons as they are is read with their operators too. -/
theorem Reads.says (d : Dialect) {level : Level} {ts : List Token} {φ : Formula}
    (h : Reads level ts φ) :
    Says level.looseness (ts.flatMap (Token.spans d)) fun v => φ.value (v.before d) := by
  induction h with
  | comparison n =>
    rw [List.flatMap_singleton]
    exact says_comparison (n.rewrite d.adapt)
  | parens h ih =>
    rw [List.flatMap_cons, List.flatMap_append, List.flatMap_singleton]
    exact ih.parens
  | not h ih =>
    rw [List.flatMap_cons]
    exact ih.not
  | factor h ih => exact ih.mono (by decide)
  | and h h' ih ih' =>
    rw [List.flatMap_append, List.flatMap_cons]
    exact ih.and ih'
  | product h ih => exact ih.mono (by decide)
  | or h h' ih ih' =>
    rw [List.flatMap_append, List.flatMap_cons]
    exact ih.or ih'

end Condition

open Condition

namespace Filter

/-- The words as which a dialect writes a filter. -/
def spans (d : Dialect) (f : Filter) : List Span := f.node.tokens.flatMap (Token.spans d)

theorem pieces_eq_spans (d : Dialect) (f : Filter) (parent : Option Kind) :
    (f.node.rewrite d.adapt).piecesIn d parent = (f.spans d).flatMap (Span.pieces d) := by
  rw [Condition.pieces_eq_tokens d f.means.condition, spans, List.flatMap_assoc]
  simp only [Token.flatMap_spans]

theorem refusal?_spans {d : Dialect} {ms : List Span}
    (h : ∀ m ∈ ms, Piece.refusal? (m.pieces d) = none) :
    Piece.refusal? (ms.flatMap (Span.pieces d)) = none := by
  induction ms with
  | nil => rfl
  | cons m ms ih =>
    rw [List.flatMap_cons, Piece.refusal?_append, h m List.mem_cons_self, Option.none_or]
    exact ih fun m hm => h m (List.mem_cons_of_mem _ hm)

/-- A filter is written as a text that binds as tight as a single condition, wherever it stands; the
text is read in one way, and what it says is what the filter means. -/
theorem means_what_it_says (d : Dialect) (f : Filter) (hw : f.node.wellFormed = true)
    (hr : ∀ m ∈ f.spans d, Piece.refusal? (m.pieces d) = none) :
    (∃ c, f.node.compile d = .ok c ∧ c.sql = Piece.sql d ((f.spans d).flatMap (Span.pieces d))) ∧
      (∀ parent, (f.node.rewrite d.adapt).piecesIn d parent =
        (f.spans d).flatMap (Span.pieces d)) ∧
      ∃ φ, Expression.Reads Sign.not.level ((f.spans d).map Span.word) φ ∧
        (∀ ψ, Expression.Reads loosest ((f.spans d).map Span.word) ψ → ψ = φ) ∧
        ∀ v : Assignment, φ.truth v = f.value (v.before d) := by
  refine ⟨⟨_, Node.compile_of_no_refusal hw ?_, ?_⟩, f.pieces_eq_spans d, ?_⟩
  · rw [Node.pieces, f.pieces_eq_spans]
    exact refusal?_spans hr
  · rw [Node.pieces, f.pieces_eq_spans]
  · obtain ⟨φ, hφ, hvalue⟩ := f.means.reads
    obtain ⟨ψ, hψ, htruth⟩ := hφ.says d
    have hunique : ∀ ψ', Expression.Reads loosest ((f.spans d).map Span.word) ψ' → ψ' = ψ :=
      fun ψ' h => h.unique (hψ.mono (m := loosest) (by decide))
    exact ⟨ψ, hψ, hunique, fun v => (htruth v).trans (hvalue _)⟩

/-- A negated list with an empty one in it. -/
theorem means_what_it_says_nested :
    let active := Node.column "active"
    let age := Node.column "age"
    let f : Filter := .not (.all [.any [.comparison active .is (.literal (.bool true)),
      .comparison age .gt (.bound (.int 3))], .any []])
    f.node.wellFormed = true ∧ (∀ m ∈ f.spans .mssql, Piece.refusal? (m.pieces .mssql) = none) ∧
      ∃ c, f.node.compile .mssql = .ok c ∧
        c.sql = "not (([active] = 1 or [age] > @1) and 1 = 0)" ∧
        ∃ φ, Expression.Reads loosest ((f.spans .mssql).map Span.word) φ ∧
          ∀ v : Assignment, φ.truth v = (((v.truth (.binary active .eq (.literal (.int 1)))).either
            (v.truth (.binary age .gt (.bound (.int 3))))).both .no).negation := by
  intro active age f
  have hw : f.node.wellFormed = true := by decide
  have hr : ∀ m ∈ f.spans .mssql, Piece.refusal? (m.pieces .mssql) = none := by decide
  obtain ⟨⟨c, hc, hsql⟩, -, φ, hφ, -, htruth⟩ := means_what_it_says .mssql f hw hr
  refine ⟨hw, hr, c, hc, hsql.trans (by decide), φ, hφ.mono (by decide), fun v => ?_⟩
  have hactive : (Node.binary active .is (.literal (.bool true))).rewrite (Dialect.adapt .mssql) =
      .binary active .eq (.literal (.int 1)) := rfl
  have hage : (Node.binary age .gt (.bound (.int 3))).rewrite (Dialect.adapt .mssql) =
      .binary age .gt (.bound (.int 3)) := rfl
  rw [htruth]
  simp only [f, value, valueOfAll, valueOfAny, Assignment.before, hactive, hage, Truth.either_no,
    Truth.both_yes]

end Filter

end SqlTree
