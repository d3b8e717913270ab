import SqlTree.Proofs.Compound.Reading
import SqlTree.Proofs.Render.Congruence

/-!
# Operands of set operations

A query is a chain of set operations on a core, with clauses around the whole.  An operand is a
query too, and is written without parentheses unless the caller puts them there.  A chain whose
operands may stand where they are (`Chain.Stands`) is read as it is meant.
-/

namespace SqlTree.Compound

/-- The clauses that are about the whole of a query. -/
structure Clauses where
  explain : Option Node := none
  withClause : Option Node := none
  orderBy : Option Node := none
  limit : Option Node := none
  offset : Option Node := none
  fetch : Option Node := none
  endModifiers : List Node := []

namespace Clauses

variable (c : Clauses)

def before : List Node := c.explain.toList ++ c.withClause.toList

/-- The clauses at the end, locks in the order in which they are written. -/
def after : List Node :=
  c.orderBy.toList ++ c.limit.toList ++ c.offset.toList ++ c.fetch.toList ++
    [0, 1, 2, 3].flatMap fun k => c.endModifiers.filter fun n => Layout.modifierPriority n == k

@[simp] theorem before_empty : ({} : Clauses).before = [] := rfl

@[simp] theorem after_empty : ({} : Clauses).after = [] := rfl

/-- A select with the clauses. -/
def around (p : Select Node) : Select Node :=
  { p with
    explain := c.explain
    withClause := c.withClause
    orderBy := c.orderBy
    limit := c.limit
    offset := c.offset
    fetch := c.fetch
    endModifiers := c.endModifiers }

end Clauses

/-- A core with the set operations called on it. -/
inductive Chain where
  | core (c : Core)
  | combined (receiver : Chain) (o : Combination) (operand : Chain) (clauses : Clauses)
    (enclosed : Bool)

namespace Chain

/-- An operand as a tree. -/
def operandNode (p : Select Node) (clauses : Clauses) (enclosed : Bool) : Node :=
  if enclosed then (clauses.around p).node.parens else (clauses.around p).node

def select : Chain → Select Node
  | .core c => c.select
  | .combined receiver o operand clauses enclosed =>
    receiver.select.combined o.operator (operandNode operand.select clauses enclosed) o.all

variable {Row : Type} [DecidableEq Row] (v : Assignment Row)

/-- The rows of a chain: every operand is a query of its own, and the operations are done from left
to right. -/
def rows : Chain → Multiset Row
  | .core c => v.core c
  | .combined receiver o operand clauses _ =>
    o.rows receiver.rows (v.window clauses.before clauses.after operand.rows)

end Chain

structure Query where
  chain : Chain
  clauses : Clauses := {}

namespace Query

variable (q : Query)

def select : Select Node := q.clauses.around q.chain.select

def answer {Row : Type} [DecidableEq Row] (v : Assignment Row) : List Row :=
  v.window q.clauses.before q.clauses.after (q.chain.rows v)

/-- The query with a set operation called on it. -/
def combined (o : Combination) (operand : Query) (enclosed : Bool) : Query :=
  { q with chain := .combined q.chain o operand.chain operand.clauses enclosed }

theorem select_combined (o : Combination) (operand : Query) (enclosed : Bool) :
    (q.combined o operand enclosed).select =
      q.select.combined o.operator
        (if enclosed then operand.select.node.parens else operand.select.node) o.all := rfl

/-- A select without set operations is a query. -/
theorem exists_select_eq {p : Select Node} (h : p.setOperations = []) :
    ∃ q : Query, q.select = p := by
  let core : Select Node := Clauses.around {} p
  exact ⟨⟨.core ⟨core, ⟨rfl, rfl, rfl, rfl, rfl, rfl, rfl⟩, h⟩, ⟨p.explain, p.withClause, p.orderBy,
    p.limit, p.offset, p.fetch, p.endModifiers⟩⟩, rfl⟩

end Query

/-! ## The text of a query -/

/-- A query as it is written: its clauses around its tokens. -/
def framed (clauses : Clauses) (ts : List Token) : List Token :=
  clauses.before.map .before ++ ts ++ clauses.after.map .after

def operandTokens (clauses : Clauses) (enclosed : Bool) (ts : List Token) : List Token :=
  if enclosed then .opening :: (framed clauses ts ++ [.closing]) else framed clauses ts

def Chain.tokens : Chain → List Token
  | .core c => [.core c]
  | .combined receiver o operand clauses enclosed =>
    receiver.tokens ++ .operation o :: operandTokens clauses enclosed operand.tokens

def Query.tokens (q : Query) : List Token := framed q.clauses q.chain.tokens

open Layout in
def Token.pieces (d : Dialect) : Token → List Piece
  | .core c => Layout.select (c.select.each fun n => (n, n.piecesIn d (some .selectQuery)))
  | .operation o => sql " " ++ (sql o.operator.keyword ++ sqlIf o.all " all" ++ sql " ")
  | .opening => sql "("
  | .closing => sql ")"
  | .before n => n.piecesIn d (some .selectQuery) ++ sql " "
  | .after n => sql " " ++ n.piecesIn d (some .selectQuery)


theorem flatMap_leading {F : Node → Layout.Part} (o : Option Node) :
    Layout.leading (o.map F) = o.toList.flatMap fun n => (F n).2 ++ Layout.sql " " := by
  cases o <;> simp [Layout.leading]

theorem flatMap_clause {F : Node → Layout.Part} (o : Option Node) :
    Layout.clause (o.map F) = o.toList.flatMap fun n => Layout.sql " " ++ (F n).2 := by
  cases o <;> simp [Layout.clause, Layout.after, Layout.sql]

section Pieces

variable (d : Dialect)

/-- A node of a select with its pieces. -/
def part (n : Node) : Layout.Part := (n, n.piecesIn d (some .selectQuery))

theorem select_around (c : Clauses) {p : Select Node} (h : Bare p) :
    Layout.select ((c.around p).each (part d)) =
      c.before.flatMap (fun n => Token.pieces d (.before n)) ++ Layout.select (p.each (part d)) ++
        c.after.flatMap (fun n => Token.pieces d (.after n)) := by
  have hmodifiers : Layout.modifiers (c.endModifiers.map (part d)) =
      ([0, 1, 2, 3].flatMap fun k => c.endModifiers.filter fun n =>
        Layout.modifierPriority n == k).flatMap fun n => Token.pieces d (.after n) := by
    rw [Layout.modifiers, Layout.byPriority_map (fun _ => rfl), Layout.clauses, List.flatMap_map]
    rfl
  simp only [Layout.select, Select.each, Clauses.around, h.explain, h.withClause, h.orderBy,
    h.limit, h.offset, h.fetch, h.endModifiers, hmodifiers, Clauses.before, Clauses.after,
    flatMap_leading, flatMap_clause, List.flatMap_append, Token.pieces, part]
  simp [Layout.modifiers, Layout.byPriority, Layout.clauses]

theorem select_combined {p : Select Node} (h : Bare p) (o : Combination) (n : Node) :
    Layout.select ((p.combined o.operator n o.all).each (part d)) =
      Layout.select (p.each (part d)) ++ (Token.pieces d (.operation o) ++
        n.piecesIn d (some .setOperation)) := by
  have hoperation : (part d ⟨.setOperation o.operator n o.all⟩).2 =
      Layout.sql o.operator.keyword ++ Layout.sqlIf o.all " all" ++ Layout.sql " " ++
        n.piecesIn d (some .setOperation) := by
    rw [part, Node.piecesIn_mk, Shape.map_eq_each]
    rfl
  simp [Layout.select, Select.each, Select.combined, h.orderBy, h.limit, h.offset, h.fetch,
    h.endModifiers, Layout.clauses, Layout.clause, Layout.after, Layout.modifiers,
    Layout.byPriority, Token.pieces, Layout.sql, hoperation]

/-- A select inside another node, where that node does not parenthesize it. -/
theorem piecesIn_select (p : Select Node) {parent : Option Kind}
    (h : Layout.parenthesized .selectQuery parent = false) :
    p.node.piecesIn d parent = Layout.select (p.each (part d)) := by
  rw [Select.node, Node.piecesIn_mk, Shape.map_eq_each]
  show Layout.enclosed .selectQuery parent _ = _
  rw [Layout.enclosed, h]
  rfl

theorem bare_select (t : Chain) : Bare t.select := by
  induction t with
  | core c => exact c.bare
  | combined receiver o operand clauses enclosed ih _ =>
    exact ⟨ih.explain, ih.withClause, ih.orderBy, ih.limit, ih.offset, ih.fetch, ih.endModifiers⟩

theorem flatMap_framed (c : Clauses) (ts : List Token) :
    (framed c ts).flatMap (Token.pieces d) =
      c.before.flatMap (fun n => Token.pieces d (.before n)) ++ ts.flatMap (Token.pieces d) ++
        c.after.flatMap (fun n => Token.pieces d (.after n)) := by
  rw [framed, List.flatMap_append, List.flatMap_append, List.flatMap_map, List.flatMap_map]

/-- The pieces of an operand are those of its tokens if those of its chain are. -/
theorem pieces_operandNode (t : Chain) (c : Clauses) (enclosed : Bool)
    (h : Layout.select (t.select.each (part d)) = t.tokens.flatMap (Token.pieces d)) :
    (Chain.operandNode t.select c enclosed).piecesIn d (some .setOperation) =
      (operandTokens c enclosed t.tokens).flatMap (Token.pieces d) := by
  have hquery : ∀ parent, Layout.parenthesized .selectQuery parent = false →
      (c.around t.select).node.piecesIn d parent =
        (framed c t.tokens).flatMap (Token.pieces d) := by
    intro parent hparent
    rw [piecesIn_select d _ hparent, select_around d c (bare_select t), h, flatMap_framed]
  cases enclosed with
  | false => exact hquery _ rfl
  | true =>
    show (c.around t.select).node.parens.piecesIn d _ = _
    rw [Node.parens, Node.piecesIn_mk, Shape.map_eq_each]
    show Layout.sql "(" ++ (c.around t.select).node.piecesIn d (some .parens) ++ Layout.sql ")" = _
    rw [hquery _ rfl]
    simp [operandTokens, Token.pieces, Layout.sql]

theorem select_tokens (t : Chain) :
    Layout.select (t.select.each (part d)) = t.tokens.flatMap (Token.pieces d) := by
  induction t with
  | core c =>
    rw [Chain.tokens, List.flatMap_singleton]
    rfl
  | combined receiver o operand clauses enclosed ih ih' =>
    rw [Chain.select, select_combined d (bare_select receiver), ih,
      pieces_operandNode d operand clauses enclosed ih', Chain.tokens, List.flatMap_append,
      List.flatMap_cons]

/-- A query is written as its tokens. -/
theorem Query.pieces_eq (q : Query) :
    q.select.node.pieces d = q.tokens.flatMap (Token.pieces d) := by
  rw [Node.pieces, piecesIn_select d _ rfl, Query.select, select_around d _ (bare_select q.chain),
    select_tokens, Query.tokens, flatMap_framed]

end Pieces

/-! ## Operands that may stand where they are -/

/-- The operation, if it is a union or a difference. -/
def sum? (o : Combination) : List Combination := if o.operator = .intersect then [] else [o]

namespace Chain

/-- The unions and differences of a chain that are not inside parentheses. -/
def sums : Chain → List Combination
  | .core _ => []
  | .combined receiver o operand _ enclosed =>
    receiver.sums ++ sum? o ++ if enclosed then [] else operand.sums

/-- Whether the operations of a chain can be read off its text: no union or difference is
intersected with something, and an operand without parentheses has no clauses, and no operations
but such as may be regrouped with the one before it. -/
def Stands : Chain → Prop
  | .core _ => True
  | .combined receiver o operand clauses enclosed =>
    receiver.Stands ∧ operand.Stands ∧ (o.operator = .intersect → receiver.sums = []) ∧
      (enclosed = false → clauses.before = [] ∧ clauses.after = [] ∧
        ∀ p ∈ operand.sums, o.regroups p = true)

end Chain

/-- The unions and differences of what was read, as far as they are not inside a query. -/
def Formula.sums : Formula → List Combination
  | .combined o f g => f.sums ++ sum? o ++ g.sums
  | _ => []

/-- A formula that combines what two rows of tokens say, read off the two rows in sequence. -/
structure Joins (level : Level) (o : Combination) (ts us : List Token) (f g e : Formula) :
    Prop where
  reads : Reads level (ts ++ .operation o :: us) e
  rows : ∀ {Row : Type} [DecidableEq Row] (v : Assignment Row),
    e.rows v = o.rows (f.rows v) (g.rows v)
  sums : e.sums = f.sums ++ sum? o ++ g.sums

namespace Reads

variable {ts us : List Token} {f g : Formula} {o p : Combination}

theorem toProduct (h : Reads .sum ts f) (hf : f.sums = []) : Reads .product ts f := by
  cases h with
  | product h => exact h
  | combined ho h h' => simp [Formula.sums, sum?, ho] at hf

/-- One more operation after operations that may be regrouped with the first. -/
theorem joins_combined {level : Level} {ts us us' : List Token} {f g g' e : Formula}
    (h : Joins level o ts us f g e) (hp : o.regroups p = true)
    (hr : Reads level ((ts ++ .operation o :: us) ++ .operation p :: us') (.combined p e g')) :
    Joins level o ts (us ++ .operation p :: us') f (.combined p g g') (.combined p e g') where
  reads := by simpa using hr
  rows v := by
    simp only [Formula.rows]
    rw [h.rows v, Combination.rows_regroup hp]
  sums := by simp [Formula.sums, h.sums]

/-- A product after an intersection. -/
theorem exists_joins_product (all : Bool) (h : Reads .product ts f) (h' : Reads .product us g) :
    ∃ e, Joins .product ⟨.intersect, all⟩ ts us f g e := by
  generalize hl : Level.product = level at h'
  induction h' with
  | operand h' => exact ⟨_, .intersect all h h', fun _ => rfl, rfl⟩
  | intersect all' h' h'' ih _ =>
    obtain ⟨e, he⟩ := ih hl
    exact ⟨_, joins_combined he rfl (.intersect all' he.reads h'')⟩
  | _ => cases hl

/-- What stands after an operation and may be regrouped with it. -/
theorem exists_joins (h : Reads .sum ts f) (hf : o.operator = .intersect → f.sums = [])
    (h' : Reads .sum us g) (hg : ∀ p ∈ g.sums, o.regroups p = true) :
    ∃ e, Joins .sum o ts us f g e := by
  generalize hl : Level.sum = level at h'
  induction h' with
  | @product us g h' =>
    by_cases ho : o.operator = .intersect
    · obtain ⟨operator, all⟩ := o
      cases ho
      obtain ⟨e, he⟩ := exists_joins_product all (h.toProduct (hf rfl)) h'
      exact ⟨e, .product he.reads, he.rows, he.sums⟩
    · exact ⟨_, .combined ho h h', fun _ => rfl, rfl⟩
  | @combined us us' g g' p hp h' h'' ih _ =>
    obtain ⟨e, he⟩ := ih (fun q hq => hg q (by simp [Formula.sums, hq])) hl
    exact ⟨_, joins_combined he (hg p (by simp [Formula.sums, sum?, hp]))
      (.combined hp he.reads h'')⟩
  | _ => cases hl

end Reads

/-- A formula that is read off a chain and has its rows. -/
structure Chain.IsRead (t : Chain) (f : Formula) : Prop where
  reads : Reads .sum t.tokens f
  rows : ∀ {Row : Type} [DecidableEq Row] (v : Assignment Row), f.rows v = t.rows v
  sums : f.sums = t.sums

theorem Chain.exists_isRead {t : Chain} (h : t.Stands) : ∃ f, t.IsRead f := by
  induction t with
  | core c => exact ⟨.core c, .product (.operand (.core c)), fun _ => rfl, rfl⟩
  | combined receiver o operand clauses enclosed ih ih' =>
    obtain ⟨hreceiver, hoperand, hintersect, hbare⟩ := h
    obtain ⟨f, hf⟩ := ih hreceiver
    obtain ⟨g, hg⟩ := ih' hoperand
    rw [← hf.sums] at hintersect
    cases enclosed with
    | true =>
      have hparens : Reads .sum (operandTokens clauses true operand.tokens)
          (.query clauses.before clauses.after g) :=
        .product (.operand (.parens (.query _ _ hg.reads)))
      obtain ⟨e, he⟩ := hf.reads.exists_joins hintersect hparens (by simp [Formula.sums])
      refine ⟨e, he.reads, fun v => ?_, ?_⟩
      · rw [he.rows v, hf.rows v, Formula.rows, hg.rows v]
        rfl
      · rw [he.sums, hf.sums]
        rfl
    | false =>
      obtain ⟨hbefore, hafter, hregroups⟩ := hbare rfl
      have htokens : operandTokens clauses false operand.tokens = operand.tokens := by
        simp [operandTokens, framed, hbefore, hafter]
      rw [← hg.sums] at hregroups
      obtain ⟨e, he⟩ := hf.reads.exists_joins hintersect hg.reads hregroups
      refine ⟨e, ?_, fun v => ?_, ?_⟩
      · rw [Chain.tokens, htokens]
        exact he.reads
      · rw [he.rows v, hf.rows v, hg.rows v, Chain.rows, hbefore, hafter, v.coe_window_nil]
      · rw [he.sums, hf.sums, hg.sums]
        rfl

/-- Whether the text of a query says what its tree says: it is read in one way, and then has the
rows of the tree in the same order. -/
def Query.Denotes (q : Query) : Prop :=
  ∃ f, Reads .query q.tokens f ∧ (∀ g, Reads .query q.tokens g → g = f) ∧
    ∀ (Row : Type) [DecidableEq Row] (v : Assignment Row), f.answer v = q.answer v

theorem Query.denotes_of_stands {q : Query} (h : q.chain.Stands) : q.Denotes := by
  obtain ⟨f, hf⟩ := Chain.exists_isRead h
  have hreads : Reads .query q.tokens (.query q.clauses.before q.clauses.after f) :=
    .query _ _ hf.reads
  refine ⟨_, hreads, fun g hg => hg.unique hreads, fun Row _ v => ?_⟩
  rw [Formula.answer, hf.rows v]
  rfl

end SqlTree.Compound
