import SqlTree.Proofs.Condition.Reading
import SqlTree.Proofs.Pass.Adapting
import SqlTree.Proofs.Render.Congruence

/-!
# Filters as they are written

Conjunctions, disjunctions and negations of comparisons are written as a row of tokens
(`Condition.pieces_eq_tokens`), and the row says what they mean: whatever stands around a filter,
the row reads as one factor whose value is that of the filter (`Filter.means`).
-/

namespace SqlTree

open Condition

/-- The row of tokens as which a condition is written. -/
def Node.tokens : Node → List Token :=
  para fun n s =>
    match s with
    | .and l r => l.2 ++ .and :: r.2
    | .or l r => l.2 ++ .or :: r.2
    | .parens c => .opening :: (c.2 ++ [.closing])
    | .unaryOperation (⟨.operator .not⟩, _) c => .not :: c.2
    | _ => [.comparison n]

namespace Node

theorem tokens_binary (l : Node) (op : Operator) (r : Node) :
    (binary l op r).tokens = [.comparison (.binary l op r)] := by
  rw [binary, tokens, para_mk, Shape.map_eq_each]
  rfl

theorem tokens_both (l r : Node) : (both l r).tokens = l.tokens ++ .and :: r.tokens := by
  rw [both, tokens, para_mk, Shape.map_eq_each]
  rfl

theorem tokens_either (l r : Node) : (either l r).tokens = l.tokens ++ .or :: r.tokens := by
  rw [either, tokens, para_mk, Shape.map_eq_each]
  rfl

theorem tokens_parens (n : Node) : n.parens.tokens = .opening :: (n.tokens ++ [.closing]) := by
  rw [parens, tokens, para_mk, Shape.map_eq_each]
  rfl

theorem tokens_negation (n : Node) : n.negation.tokens = .not :: n.tokens := by
  rw [negation, unary, tokens, para_mk, Shape.map_eq_each]
  rfl

end Node

namespace Condition

/-- The pieces of a token, where a dialect has adapted the comparisons. -/
def Token.pieces (d : Dialect) : Token → List Piece
  | .comparison n => (n.rewrite d.adapt).pieces d
  | .and => Layout.sql " and "
  | .or => Layout.sql " or "
  | .not => Layout.sql "not" ++ Layout.sql " "
  | .opening => Layout.sql "("
  | .closing => Layout.sql ")"

/-- Nodes made of comparisons by the connectives. -/
inductive IsCondition : Node → Prop
  | binary (l : Node) (op : Operator) (r : Node) : IsCondition (.binary l op r)
  | both {l r : Node} (hl : IsCondition l) (hr : IsCondition r) : IsCondition (l.both r)
  | either {l r : Node} (hl : IsCondition l) (hr : IsCondition r) : IsCondition (l.either r)
  | parens {n : Node} (h : IsCondition n) : IsCondition n.parens
  | negation {n : Node} (h : IsCondition n) : IsCondition n.negation

/-- An adapted child with its pieces. -/
def adaptedPart (d : Dialect) (parent : Kind) (n : Node) : Layout.Part :=
  (n.rewrite d.adapt, (n.rewrite d.adapt).piecesIn d (some parent))

theorem piecesIn_adapted (d : Dialect) {s : Shape Node} (hs : s.kind ≠ .selectQuery)
    (hb : s.kind ≠ .binaryOperation) (parent : Option Kind) :
    (Node.rewrite d.adapt ⟨s⟩).piecesIn d parent =
      Layout.pieces d parent (s.each (adaptedPart d s.kind)) := by
  rw [d.rewrite_adapt_mk hs hb, Node.piecesIn_mk, ← Shape.map_eq_each, ← Shape.map_eq_each,
    Shape.map_map, Shape.kind_map]
  rfl

theorem piecesIn_comparison (d : Dialect) {n : Node} (h : n.kind = .binaryOperation)
    (parent : Option Kind) : n.piecesIn d parent = n.pieces d := by
  obtain ⟨s⟩ := n
  cases s with
  | binaryOperation l op r =>
    rw [Node.pieces, Node.piecesIn_mk, Node.piecesIn_mk, Shape.map_eq_each]
    rfl
  | _ => cases h

/-- A condition is written token by token. -/
theorem pieces_eq_tokens (d : Dialect) {n : Node} (h : IsCondition n) (parent : Option Kind) :
    (n.rewrite d.adapt).piecesIn d parent = n.tokens.flatMap (Token.pieces d) := by
  induction h generalizing parent with
  | binary l op r =>
    rw [Node.tokens_binary, List.flatMap_singleton]
    exact piecesIn_comparison d (Node.kind_rewrite d.kind_adapt _) parent
  | @both l r hl hr ihl ihr =>
    rw [Node.tokens_both, List.flatMap_append, List.flatMap_cons, ← ihl (some .and),
      ← ihr (some .and), ← List.append_assoc]
    exact piecesIn_adapted d (s := .and l r) nofun nofun parent
  | @either l r hl hr ihl ihr =>
    rw [Node.tokens_either, List.flatMap_append, List.flatMap_cons, ← ihl (some .or),
      ← ihr (some .or), ← List.append_assoc]
    exact piecesIn_adapted d (s := .or l r) nofun nofun parent
  | @parens n h ih =>
    rw [Node.tokens_parens, List.flatMap_cons, List.flatMap_append, List.flatMap_singleton,
      ← ih (some .parens), ← List.append_assoc]
    exact piecesIn_adapted d (s := .parens n) nofun nofun parent
  | @negation n h ih =>
    have hop : Node.rewrite d.adapt ⟨.operator .not⟩ = ⟨.operator .not⟩ :=
      d.rewrite_adapt_mk (s := .operator .not) nofun nofun
    rw [Node.tokens_negation, List.flatMap_cons, ← ih (some .unaryOperation), Node.negation,
      Node.unary, piecesIn_adapted d (s := .unaryOperation ⟨.operator .not⟩ n) nofun nofun,
      Shape.each, adaptedPart, hop]
    rfl

/-- The node is a condition whose row reads at a level with the value `t`. -/
structure Means (level : Level) (n : Node) (t : Assignment → Truth) : Prop where
  condition : IsCondition n
  reads : ∃ φ, Reads level n.tokens φ ∧ ∀ v, φ.value v = t v

namespace Means

variable {level : Level} {m n : Node} {s t : Assignment → Truth}

theorem binary (l : Node) (op : Operator) (r : Node) :
    Means .factor (.binary l op r) fun v => v.truth (.binary l op r) where
  condition := .binary l op r
  reads := ⟨.comparison (.binary l op r), Node.tokens_binary l op r ▸ .comparison _, fun _ => rfl⟩

theorem product (h : Means .factor n t) : Means .product n t := by
  obtain ⟨hn, φ, hφ, ht⟩ := h
  exact ⟨hn, φ, .factor hφ, ht⟩

theorem sum (h : Means .product n t) : Means .sum n t := by
  obtain ⟨hn, φ, hφ, ht⟩ := h
  exact ⟨hn, φ, .product hφ, ht⟩

theorem both (hm : Means .product m s) (hn : Means .factor n t) :
    Means .product (m.both n) fun v => (s v).both (t v) := by
  obtain ⟨hm, φ, hφ, hs⟩ := hm
  obtain ⟨hn, ψ, hψ, ht⟩ := hn
  refine ⟨.both hm hn, .both φ ψ, Node.tokens_both m n ▸ .and hφ hψ, fun v => ?_⟩
  rw [Formula.value, hs, ht]

theorem either (hm : Means .sum m s) (hn : Means .product n t) :
    Means .sum (m.either n) fun v => (s v).either (t v) := by
  obtain ⟨hm, φ, hφ, hs⟩ := hm
  obtain ⟨hn, ψ, hψ, ht⟩ := hn
  refine ⟨.either hm hn, .either φ ψ, Node.tokens_either m n ▸ .or hφ hψ, fun v => ?_⟩
  rw [Formula.value, hs, ht]

theorem parens (h : Means .sum n t) : Means .factor n.parens t := by
  obtain ⟨hn, φ, hφ, ht⟩ := h
  exact ⟨.parens hn, φ, Node.tokens_parens n ▸ .parens hφ, ht⟩

theorem negation (h : Means .factor n t) : Means .factor n.negation fun v => (t v).negation := by
  obtain ⟨hn, φ, hφ, ht⟩ := h
  refine ⟨.negation hn, .negation φ, Node.tokens_negation n ▸ .not hφ, fun v => ?_⟩
  rw [Formula.value, ht]

theorem congr (h : Means level n s) (hst : ∀ v, s v = t v) : Means level n t := by
  rwa [← funext hst]

/-- The value does not depend on how the row is read. -/
theorem value_eq (h : Means .sum n t) {φ : Formula} (hφ : Reads .sum n.tokens φ) (v : Assignment) :
    φ.value v = t v := by
  obtain ⟨-, ψ, hψ, ht⟩ := h
  rw [hφ.value_eq, ← hψ.value_eq, ht]

end Means

end Condition

/-- Comparisons, and what is made of them. -/
inductive Filter where
  | comparison (left : Node) (operator : Operator) (right : Node)
  | all (fs : List Filter)
  | any (fs : List Filter)
  | not (f : Filter)

namespace Filter

mutual

def node : Filter → Node
  | .comparison l op r => .binary l op r
  | .all fs => .conjunction (nodes fs)
  | .any fs => .disjunction (nodes fs)
  | .not f => f.node.negation

def nodes : List Filter → List Node
  | [] => []
  | f :: fs => f.node :: nodes fs

end

mutual

/-- What a filter means. -/
def value (v : Assignment) : Filter → Truth
  | .comparison l op r => v.truth (.binary l op r)
  | .all fs => valueOfAll v fs
  | .any fs => valueOfAny v fs
  | .not f => (value v f).negation

def valueOfAll (v : Assignment) : List Filter → Truth
  | [] => .yes
  | f :: fs => (value v f).both (valueOfAll v fs)

def valueOfAny (v : Assignment) : List Filter → Truth
  | [] => .no
  | f :: fs => (value v f).either (valueOfAny v fs)

end

/-- What is said of every filter of a list. -/
def AllMean (level : Level) : List Filter → Prop
  | [] => True
  | f :: fs => Means level f.node (fun v => f.value v) ∧ AllMean level fs

theorem means_foldl_both {fs : List Filter} (hfs : AllMean .factor fs) {n : Node}
    {t : Assignment → Truth} (hn : Means .product n t) :
    Means .product ((nodes fs).foldl .both n) fun v => (t v).both (valueOfAll v fs) := by
  induction fs generalizing n t with
  | nil =>
    rw [nodes]
    exact hn.congr fun v => (Truth.both_yes _).symm
  | cons f fs ih =>
    rw [nodes]
    refine (ih hfs.2 (hn.both hfs.1)).congr fun v => ?_
    rw [valueOfAll, Truth.both_assoc]

theorem means_foldl_either {fs : List Filter} (hfs : AllMean .factor fs) {n : Node}
    {t : Assignment → Truth} (hn : Means .sum n t) :
    Means .sum ((nodes fs).foldl .either n) fun v => (t v).either (valueOfAny v fs) := by
  induction fs generalizing n t with
  | nil =>
    rw [nodes]
    exact hn.congr fun v => (Truth.either_no _).symm
  | cons f fs ih =>
    rw [nodes]
    refine (ih hfs.2 (hn.either hfs.1.product)).congr fun v => ?_
    rw [valueOfAny, Truth.either_assoc]

theorem means_conjunction {fs : List Filter} (hfs : AllMean .factor fs) :
    Means .factor (.conjunction (nodes fs)) fun v => valueOfAll v fs := by
  match fs, hfs with
  | [], _ => exact (Means.binary _ _ _).congr fun v => v.always
  | [f], hfs =>
    simp only [nodes, Node.conjunction, Node.joined]
    exact hfs.1.congr fun v => by rw [valueOfAll, valueOfAll, Truth.both_yes]
  | f :: g :: fs, hfs =>
    simp only [nodes, Node.conjunction, Node.joined]
    exact (means_foldl_both hfs.2 hfs.1.product).sum.parens

theorem means_disjunction {fs : List Filter} (hfs : AllMean .factor fs) :
    Means .factor (.disjunction (nodes fs)) fun v => valueOfAny v fs := by
  match fs, hfs with
  | [], _ => exact (Means.binary _ _ _).congr fun v => v.never
  | [f], hfs =>
    simp only [nodes, Node.disjunction, Node.joined]
    exact hfs.1.congr fun v => by rw [valueOfAny, valueOfAny, Truth.either_no]
  | f :: g :: fs, hfs =>
    simp only [nodes, Node.disjunction, Node.joined]
    exact (means_foldl_either hfs.2 hfs.1.product.sum).parens

mutual

/-- A filter is written as one factor that says what it means. -/
theorem means : ∀ f : Filter, Means .factor f.node fun v => f.value v
  | .comparison l op r => by
    simp only [node, value]
    exact .binary l op r
  | .all fs => by
    simp only [node, value]
    exact means_conjunction (allMean fs)
  | .any fs => by
    simp only [node, value]
    exact means_disjunction (allMean fs)
  | .not f => by
    simp only [node, value]
    exact f.means.negation

theorem allMean : ∀ fs : List Filter, AllMean .factor fs
  | [] => trivial
  | f :: fs => ⟨f.means, allMean fs⟩

end

end Filter

end SqlTree
