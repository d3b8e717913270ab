import SqlTree.Proofs.Tree.Rewriting
import SqlTree.Render.Layout

/-!
# Relations that layouts keep

A layout puts the pieces of the children between words of its own.  A relation between pieces that
holds of the words and goes through concatenation therefore holds of two layouts of one shape as
soon as it holds of the children, also where the two are made for different dialects
(`Layout.Congruence.pieces`).
-/

namespace SqlTree

namespace Layout

/-- A relation between pieces for two dialects that holds of all words and goes through
concatenation. -/
structure Congruence (d e : Dialect) (R : List Piece → List Piece → Prop) : Prop where
  nil : R [] []
  append : ∀ {ps qs ps' qs'}, R ps qs → R ps' qs' → R (ps ++ ps') (qs ++ qs')
  text : ∀ s, R [.text s] [.text s]
  verbatim : ∀ s, R [.verbatim s] [.verbatim s]
  defaultValue : R (sql d.defaultInsertValue) (sql e.defaultInsertValue)
  autoIncrement : R (sql (" " ++ d.autoIncrement)) (sql (" " ++ e.autoIncrement))
  rows : R (sqlIf (d.pagination != .limitOffset) " rows")
    (sqlIf (e.pagination != .limitOffset) " rows")
  returning : R (if d.supportsReturning then sql "returning " else [.refused .returning])
    (if e.supportsReturning then sql "returning " else [.refused .returning])
  insertVerb : ∀ b c, R (insertVerb d b c) (insertVerb e b c)
  ignoresAtEnd : ∀ b c s, R (sqlIf (b && d.insertIgnore == .onConflictDoNothing && c) s)
    (sqlIf (b && e.insertIgnore == .onConflictDoNothing && c) s)

/-- Nodes that no layout tells apart. -/
structure Alike (m n : Node) : Prop where
  modifierPriority : modifierPriority m = modifierPriority n
  isNegation : isNegation m = isNegation n
  hasNoItems : hasNoItems m = hasNoItems n

theorem Alike.refl (n : Node) : Alike n n := ⟨rfl, rfl, rfl⟩

theorem Alike.map {α : Type} (s : Shape α) (f g : α → Node) :
    Alike ⟨s.map f⟩ ⟨s.map g⟩ := by
  rw [Shape.map_eq_each, Shape.map_eq_each]
  cases s with
  | fromClause items => cases items <;> exact ⟨rfl, rfl, rfl⟩
  | selectModifier modifier fragment tables => cases modifier <;> exact ⟨rfl, rfl, rfl⟩
  | _ => exact ⟨rfl, rfl, rfl⟩

/-- Nodes are told apart only if they are modifiers, operators or lists of tables. -/
theorem Alike.ofKind {m n : Node} (h : n.kind = m.kind) (hm : m.kind ≠ .selectModifier)
    (ho : m.kind ≠ .operator) (hf : m.kind ≠ .fromClause) : Alike m n := by
  have hnone : ∀ n : Node, n.kind ≠ .selectModifier → n.kind ≠ .operator →
      n.kind ≠ .fromClause →
      Layout.modifierPriority n = 3 ∧ Layout.isNegation n = false ∧
        Layout.hasNoItems n = false := by
    intro n hm ho hf
    obtain ⟨s⟩ := n
    cases s with
    | selectModifier modifier fragment tables => exact absurd rfl hm
    | operator o => exact absurd rfl ho
    | fromClause items => exact absurd rfl hf
    | _ => exact ⟨rfl, rfl, rfl⟩
  obtain ⟨hm1, hm2, hm3⟩ := hnone m hm ho hf
  obtain ⟨hn1, hn2, hn3⟩ := hnone n (h ▸ hm) (h ▸ ho) (h ▸ hf)
  exact ⟨hm1.trans hn1.symm, hm2.trans hn2.symm, hm3.trans hn3.symm⟩

/-- Shapes that write pieces of their own which are neither words nor pieces of a child. -/
def isLeaf {α : Type} : Shape α → Bool
  | .identifier _ => true
  | .value .. => true
  | .valueList (.primitive _) => true
  | _ => false

theorem eq_of_isLeaf {α : Type} {s : Shape α} (h : isLeaf s = true) :
    (∃ name, s = .identifier name) ∨ (∃ v immediate, s = .value v immediate) ∨
      ∃ vs, s = .valueList (.primitive vs) := by
  cases s with
  | identifier name => exact .inl ⟨name, rfl⟩
  | value v immediate => exact .inr (.inl ⟨v, immediate, rfl⟩)
  | valueList items =>
    cases items with
    | primitive vs => exact .inr (.inr ⟨vs, rfl⟩)
    | expressions as => cases h
  | _ => cases h

/-- Within one dialect only concatenation is to be shown, with the pieces that are words. -/
theorem Congruence.ofWords {d : Dialect} {R : List Piece → List Piece → Prop} (nil : R [] [])
    (append : ∀ {ps qs ps' qs'}, R ps qs → R ps' qs' → R (ps ++ ps') (qs ++ qs'))
    (text : ∀ s, R [.text s] [.text s]) (verbatim : ∀ s, R [.verbatim s] [.verbatim s])
    (refused : ∀ f, R [.refused f] [.refused f]) : Congruence d d R where
  nil := nil
  append := append
  text := text
  verbatim := verbatim
  defaultValue := text _
  autoIncrement := text _
  rows := by
    unfold sqlIf
    split
    · exact text _
    · exact nil
  returning := by
    split
    · exact text _
    · exact refused _
  insertVerb b c := by
    unfold Layout.insertVerb
    repeat' split
    all_goals first | exact text _ | exact refused _
  ignoresAtEnd b c s := by
    unfold sqlIf
    split
    · exact text _
    · exact nil

namespace Congruence

variable {d e : Dialect} {R : List Piece → List Piece → Prop} (c : Congruence d e R)
include c

theorem sql (s : String) : R (Layout.sql s) (Layout.sql s) := c.text s

theorem sqlIf (b : Bool) (s : String) : R (Layout.sqlIf b s) (Layout.sqlIf b s) := by
  cases b
  · exact c.nil
  · exact c.text s

theorem cons (s : String) {ps qs : List Piece} (h : R ps qs) :
    R (.text s :: ps) (.text s :: qs) := c.append (c.text s) h

theorem consVerbatim (s : String) {ps qs : List Piece} (h : R ps qs) :
    R (.verbatim s :: ps) (.verbatim s :: qs) := c.append (c.verbatim s) h

theorem enclosed (k : Kind) (parent : Option Kind) {ps qs : List Piece} (h : R ps qs) :
    R (Layout.enclosed k parent ps) (Layout.enclosed k parent qs) := by
  unfold Layout.enclosed
  split
  · exact c.append (c.append (c.sql "(") h) (c.sql ")")
  · exact h

section Parts

variable {α : Type} {F G : α → Part} (h : ∀ a, R (F a).2 (G a).2)
include h

theorem separated (s : String) (as : List α) :
    R (Layout.separated s (as.map F)) (Layout.separated s (as.map G)) := by
  induction as with
  | nil => exact c.nil
  | cons a as ih =>
    cases as with
    | nil => exact h a
    | cons b as => exact c.append (h a) (c.cons s ih)

theorem commas (as : List α) : R (Layout.commas (as.map F)) (Layout.commas (as.map G)) :=
  c.separated h ", " as

theorem listed (as : List α) : R (Layout.listed (as.map F)) (Layout.listed (as.map G)) :=
  c.append (c.append (c.sql "(") (c.commas h as)) (c.sql ")")

theorem after (s : String) (o : Option α) :
    R (Layout.after s (o.map F)) (Layout.after s (o.map G)) := by
  cases o with
  | none => exact c.nil
  | some a => exact c.cons s (h a)

theorem clause (o : Option α) : R (Layout.clause (o.map F)) (Layout.clause (o.map G)) :=
  c.after h " " o

theorem clauses (as : List α) : R (Layout.clauses (as.map F)) (Layout.clauses (as.map G)) := by
  induction as with
  | nil => exact c.nil
  | cons a as ih => exact c.append (c.cons " " (h a)) ih

theorem leading (o : Option α) : R (Layout.leading (o.map F)) (Layout.leading (o.map G)) := by
  cases o with
  | none => exact c.nil
  | some a => exact c.append (h a) (c.sql " ")

theorem fragments (ss : List String) (as : List α) :
    R (Layout.fragments ss (as.map F)) (Layout.fragments ss (as.map G)) := by
  induction ss generalizing as with
  | nil => exact c.nil
  | cons s ss ih =>
    cases as with
    | nil => exact c.consVerbatim s (ih [])
    | cons a as => exact c.append (c.consVerbatim s (h a)) (ih as)

theorem constraintName (o : Option α) :
    R (Layout.constraintName (o.map F)) (Layout.constraintName (o.map G)) := by
  cases o with
  | none => exact c.nil
  | some a => exact c.append (c.append (c.sql _) (h a)) (c.sql _)

omit h in
/-- Lists that are left out when they are empty. -/
theorem unlessEmpty (as : List α) {ps qs : List Piece} (hpq : R ps qs) :
    R (if (as.map F).isEmpty then [] else ps) (if (as.map G).isEmpty then [] else qs) := by
  cases as with
  | nil => exact c.nil
  | cons a as => exact hpq

end Parts

end Congruence

theorem byPriority_map {α : Type} {F : α → Part} {priority : α → Nat}
    (h : ∀ a, modifierPriority (F a).1 = priority a) (as : List α) :
    byPriority (as.map F) =
      ([0, 1, 2, 3].flatMap fun k => as.filter fun a => priority a == k).map F := by
  simp [byPriority, List.filter_map, Function.comp_def, h]

namespace Congruence

variable {d e : Dialect} {R : List Piece → List Piece → Prop} (c : Congruence d e R)
  {α : Type} {F G : α → Part} (h : ∀ a, R (F a).2 (G a).2)
include c h

theorem modifiers (hl : ∀ a, Alike (F a).1 (G a).1) (as : List α) :
    R (Layout.modifiers (as.map F)) (Layout.modifiers (as.map G)) := by
  rw [Layout.modifiers, Layout.modifiers, byPriority_map (fun a => (hl a).modifierPriority),
    byPriority_map (fun _ => rfl)]
  exact c.clauses h _

theorem aggregate (p : Aggregate α) :
    R (Layout.aggregate (p.each F)) (Layout.aggregate (p.each G)) := by
  obtain ⟨name, arguments, distinct, orderBy, filter, window⟩ := p
  refine c.consVerbatim name (c.append (c.append (c.append (c.append (c.append (c.append
    (c.sql _) (c.sqlIf _ _)) (c.commas h _)) (c.clause h _)) (c.sql _)) ?_) ?_)
  · cases filter with
    | none => exact c.nil
    | some a => exact c.append (c.append (c.sql _) (h a)) (c.sql _)
  · cases window with
    | none => exact c.nil
    | some a => exact c.append (c.append (c.sql _) (h a)) (c.sql _)

theorem select (hl : ∀ a, Alike (F a).1 (G a).1) (p : Select α) :
    R (Layout.select (p.each F)) (Layout.select (p.each G)) := by
  unfold Layout.select Select.each
  repeat' apply c.append
  all_goals first
    | exact c.sql _
    | exact c.leading h _
    | exact c.clause h _
    | exact c.clauses h _
    | exact c.modifiers h hl _
    | exact c.unlessEmpty _ (c.append (c.sql _) (c.listed h _))
    | exact c.unlessEmpty _ (c.append (c.sql _) (c.commas h _))

theorem insert (p : Insert α) :
    R (Layout.insert d (p.each F)) (Layout.insert e (p.each G)) := by
  unfold Layout.insert Insert.each
  repeat' apply c.append
  all_goals first
    | exact c.insertVerb _ _
    | exact c.sqlIf _ _
    | exact c.leading h _
    | exact c.after h _ _
    | exact c.clause h _
    | exact c.unlessEmpty _ (c.append (c.sql _) (c.listed h _))
    | skip
  simpa [Layout.ignoresAtEnd] using c.ignoresAtEnd p.ignore p.onConflict.isNone _

theorem onConflict (p : OnConflict α) :
    R (Layout.onConflict (p.each F)) (Layout.onConflict (p.each G)) := by
  obtain ⟨columns, constraint, indexExpression, indexWhere, updates, updateWhere, doNothing⟩ := p
  refine c.append (c.append (c.append (c.sql _) ?_) (c.clause h _)) ?_
  · cases columns with
    | cons a as => exact c.append (c.sql _) (c.listed h (a :: as))
    | nil =>
      cases constraint with
      | some a => exact c.append (c.sql _) (h a)
      | none =>
        cases indexExpression with
        | some a => exact c.append (c.append (c.sql _) (h a)) (c.sql _)
        | none => exact c.nil
  · cases doNothing with
    | true => exact c.sql _
    | false =>
      exact c.unlessEmpty _ (c.append (c.append (c.sql _) (c.commas h _)) (c.clause h _))

theorem update (p : Update α) :
    R (Layout.update (p.each F)) (Layout.update (p.each G)) := by
  obtain ⟨table, fromClause, joins, whereClause, updates, returning, withClause, limit, explain⟩ :=
    p
  have hplain : ∀ o : Option α, R (if (o.map F).isNone then Layout.clauses (joins.map F) else [])
      (if (o.map G).isNone then Layout.clauses (joins.map G) else []) := by
    intro o
    cases o with
    | none => exact c.clauses h joins
    | some a => exact c.nil
  have hfrom : ∀ o : Option α,
      R (if (o.map F).isNone then [] else Layout.clause (o.map F) ++ Layout.clauses (joins.map F))
        (if (o.map G).isNone then [] else
          Layout.clause (o.map G) ++ Layout.clauses (joins.map G)) := by
    intro o
    cases o with
    | none => exact c.nil
    | some a => exact c.append (c.clause h (some a)) (c.clauses h joins)
  have hhead := c.append (c.append (c.leading h explain) (c.leading h withClause)) (c.sql "update")
  have hset := c.append (c.append (c.append (c.append hhead (c.clause h table)) (hplain fromClause))
    (c.sql " set ")) (c.commas h updates)
  exact c.append (c.append (c.append (c.append hset (hfrom fromClause)) (c.clause h whereClause))
    (c.clause h limit)) (c.clause h returning)

theorem delete (hl : ∀ a, Alike (F a).1 (G a).1) (p : Delete α) :
    R (Layout.delete (p.each F)) (Layout.delete (p.each G)) := by
  have hfrom :
      R (if hasNoItems (F p.fromClause).1 then [] else Layout.sql " " ++ (F p.fromClause).2)
        (if hasNoItems (G p.fromClause).1 then [] else Layout.sql " " ++ (G p.fromClause).2) := by
    rw [(hl p.fromClause).hasNoItems]
    split
    · exact c.nil
    · exact c.append (c.sql _) (h _)
  unfold Layout.delete Delete.each
  repeat' apply c.append
  all_goals first
    | exact hfrom
    | exact c.sql _
    | exact c.leading h _
    | exact c.clause h _
    | exact c.clauses h _

theorem merge (p : Merge α) (hj : ∀ j, p.usingJoin = some j → R (F j).2.tail (G j).2.tail) :
    R (Layout.merge (p.each F)) (Layout.merge (p.each G)) := by
  obtain ⟨into, usingJoin, branches, withClause⟩ := p
  refine c.append (c.append (c.append (c.append (c.leading h _) (c.sql _)) (h into)) ?_)
    (c.clauses h _)
  cases usingJoin with
  | none => exact c.nil
  | some j => exact c.append (c.sql _) (hj j rfl)

theorem createTable (p : CreateTable α) :
    R (Layout.createTable (p.each F)) (Layout.createTable (p.each G)) := by
  obtain ⟨table, columns, constraints, temporary, ifNotExists, onCommit⟩ := p
  have hitems : R (Layout.listed (columns.map F ++ constraints.map F))
      (Layout.listed (columns.map G ++ constraints.map G)) := by
    rw [← List.map_append, ← List.map_append]
    exact c.listed h _
  refine c.append (c.append (c.append (c.append (c.append (c.append (c.append (c.sql _)
    (c.sqlIf _ _)) (c.sql _)) (c.sqlIf _ _)) (h table)) (c.sql _)) hitems) ?_
  cases onCommit with
  | none => exact c.nil
  | some a => exact c.sql _

theorem columnDefinition (p : ColumnDefinition α) :
    R (Layout.columnDefinition d (p.each F)) (Layout.columnDefinition e (p.each G)) := by
  have hincrement : R (Layout.sqlIf p.autoIncrement (" " ++ d.autoIncrement))
      (Layout.sqlIf p.autoIncrement (" " ++ e.autoIncrement)) := by
    cases p.autoIncrement
    · exact c.nil
    · exact c.autoIncrement
  unfold Layout.columnDefinition ColumnDefinition.each
  repeat' apply c.append
  all_goals first
    | exact hincrement
    | exact c.sql _
    | exact c.sqlIf _ _
    | exact h _
    | exact c.clause h _

theorem generated (p : Generated α) :
    R (Layout.generated (p.each F)) (Layout.generated (p.each G)) := by
  obtain ⟨byDefault, always, identity, stored, expression⟩ := p
  refine c.append (c.append (c.append (c.append (c.sql _) ?_) (c.sql _)) ?_) (c.sqlIf _ _)
  · cases always
    · exact c.sqlIf _ _
    · exact c.sql _
  · cases expression with
    | none => exact c.sql _
    | some a =>
      cases identity
      · exact c.append (c.append (c.sql _) (h a)) (c.sql _)
      · exact c.sql _

theorem references (p : References α) :
    R (Layout.references (p.each F)) (Layout.references (p.each G)) := by
  obtain ⟨table, columns, onDelete, onUpdate⟩ := p
  refine c.append (c.append (c.append (c.append (c.append (c.sql _) (h table)) (c.sql _))
    (c.listed h _)) ?_) ?_
  · cases onDelete with
    | none => exact c.nil
    | some a => exact c.sql _
  · cases onUpdate with
    | none => exact c.nil
    | some a => exact c.sql _

theorem createIndex (p : CreateIndex α) :
    R (Layout.createIndex (p.each F)) (Layout.createIndex (p.each G)) := by
  unfold Layout.createIndex CreateIndex.each
  repeat' apply c.append
  all_goals first
    | exact c.sql _
    | exact c.sqlIf _ _
    | exact h _
    | exact c.after h _ _
    | exact c.clause h _
    | exact c.unlessEmpty _ (c.append (c.sql _) (c.listed h _))
    | skip
  cases p.method with
  | none => exact c.nil
  | some m => exact c.append (c.sql _) (c.verbatim m)

theorem createView (p : CreateView α) :
    R (Layout.createView (p.each F)) (Layout.createView (p.each G)) := by
  unfold Layout.createView CreateView.each
  repeat' apply c.append
  all_goals first
    | exact c.sql _
    | exact c.sqlIf _ _
    | exact h _
    | exact c.after h _ _
    | exact c.unlessEmpty _ (c.append (c.sql _) (c.listed h _))

theorem alterTable (p : AlterTable α) :
    R (Layout.alterTable (p.each F)) (Layout.alterTable (p.each G)) := by
  unfold Layout.alterTable AlterTable.each
  repeat' apply c.append
  all_goals first
    | exact c.sql _
    | exact h _
    | exact c.after h _ _
    | exact c.clause h _
    | exact c.unlessEmpty _ (c.append (c.sql _) (c.commas h _))

theorem alterColumn (p : AlterColumn α) :
    R (Layout.alterColumn (p.each F)) (Layout.alterColumn (p.each G)) := by
  obtain ⟨column, dataType, setDefault, dropDefault, setNotNull, dropNotNull⟩ := p
  refine c.append (c.append (c.sql _) (h column)) ?_
  cases dataType with
  | some a => exact c.append (c.sql _) (h a)
  | none =>
    cases setDefault with
    | some a => exact c.append (c.sql _) (h a)
    | none =>
      cases dropDefault
      · cases setNotNull
        · exact c.sqlIf _ _
        · exact c.sql _
      · exact c.sql _

theorem piecesOfAll (hl : ∀ a, Alike (F a).1 (G a).1) (s : Shape α) (parent : Option Kind)
    (hleaf : isLeaf s = true →
      R (Layout.pieces d parent (s.map F)) (Layout.pieces e parent (s.map G)))
    (hjoin : ∀ p j, s = .mergeQuery p → p.usingJoin = some j → R (F j).2.tail (G j).2.tail) :
    R (Layout.pieces d parent (s.map F)) (Layout.pieces e parent (s.map G)) := by
  by_cases hs : isLeaf s = true
  · exact hleaf hs
  rw [Shape.map_eq_each, Shape.map_eq_each]
  cases s with
  | identifier a => exact absurd rfl hs
  | value a b => exact absurd rfl hs
  | valueList i =>
    cases i with
    | primitive vs => exact absurd rfl hs
    | expressions as => exact c.listed h as
  | aggregateFunction p => exact c.aggregate h p
  | onConflict p => exact c.onConflict h p
  | selectQuery p => exact c.enclosed _ _ (c.select h hl p)
  | insertQuery p => exact c.enclosed _ _ (c.insert h p)
  | updateQuery p => exact c.enclosed _ _ (c.update h p)
  | deleteQuery p => exact c.enclosed _ _ (c.delete h hl p)
  | mergeQuery p => exact c.enclosed _ _ (c.merge h p fun j hj => hjoin p j rfl hj)
  | createTable p => exact c.createTable h p
  | columnDefinition p => exact c.columnDefinition h p
  | generated p => exact c.generated h p
  | references p => exact c.references h p
  | createIndex p => exact c.createIndex h p
  | createView p => exact c.createView h p
  | alterTable p => exact c.alterTable h p
  | alterColumn p => exact c.alterColumn h p
  | schemableIdentifier a b =>
    refine c.append ?_ (h b)
    cases a with
    | none => exact c.nil
    | some a => exact c.append (h a) (c.sql _)
  | reference a b =>
    refine c.append ?_ (h b)
    cases a with
    | none => exact c.nil
    | some a => exact c.append (h a) (c.sql _)
  | defaultInsertValue => exact c.defaultValue
  | unaryOperation a b =>
    refine c.append (c.append (h a) ?_) (h b)
    rw [(hl a).isNegation]
    exact c.sqlIf _ _
  | raw ss as => exact c.fragments h ss as
  | function a as => exact c.consVerbatim a (c.listed h as)
  | window a b =>
    cases a with
    | none => exact c.after h "" b
    | some a => exact c.append (h a) (c.clause h b)
  | orderByItem a direction nulls =>
    refine c.append (c.append (h a) ?_) ?_
    · cases direction with
      | none => exact c.nil
      | some x => exact c.sql _
    · cases nulls with
      | none => exact c.nil
      | some x => exact c.sql _
  | offset a => exact c.append (c.append (c.sql _) (h a)) c.rows
  | top a modifier =>
    refine c.append (c.append (c.append (c.sql _) (h a)) (c.sql _)) ?_
    cases modifier with
    | none => exact c.nil
    | some m => exact c.sql _
  | selectModifier modifier fragment tables =>
    refine c.append ?_ (c.unlessEmpty tables (c.append (c.sql _) (c.commas h tables)))
    cases modifier with
    | some m => exact c.sql _
    | none =>
      cases fragment with
      | none => exact c.nil
      | some a => exact h a
  | commonTableExpression name materialized a =>
    refine c.append (c.append (c.append (h name) (c.sql _)) ?_) (h a)
    cases materialized with
    | none => exact c.nil
    | some b => cases b <;> exact c.sql _
  | commonTableExpressionName a as =>
    exact c.append (h a) (c.unlessEmpty as (c.listed h as))
  | returning as => exact c.append c.returning (c.commas h as)
  | dataType a => exact c.verbatim a
  | _ =>
    unfold Shape.each Layout.pieces
    repeat' apply c.append
    all_goals first
      | exact h _
      | exact c.sql _
      | exact c.sqlIf _ _
      | exact c.commas h _
      | exact c.after h _ _
      | exact c.clause h _
      | exact c.clauses h _
      | exact c.constraintName h _

omit h in
/-- Two layouts of one shape are related if the pieces of its children are. -/
theorem pieces (s : Shape α) (parent : Option Kind)
    (h : ∀ a ∈ s.children, R (F a).2 (G a).2) (hl : ∀ a ∈ s.children, Alike (F a).1 (G a).1)
    (hleaf : isLeaf s = true →
      R (Layout.pieces d parent (s.map F)) (Layout.pieces e parent (s.map G)))
    (hjoin : ∀ j, (Slot.only .join, j) ∈ s.slotted → R (F j).2.tail (G j).2.tail) :
    R (Layout.pieces d parent (s.map F)) (Layout.pieces e parent (s.map G)) := by
  classical
  -- Off the children the maps do not matter, so they may be taken to agree there.
  let only (H : α → Part) (a : α) : Part := if a ∈ s.children then H a else (default, [])
  have honly : ∀ H : α → Part, s.map H = s.map (only H) := by
    intro H
    exact s.map_congr fun a ha => (if_pos ha).symm
  rw [honly F, honly G] at hleaf ⊢
  refine c.piecesOfAll ?_ ?_ s parent hleaf ?_
  · intro a
    by_cases ha : a ∈ s.children
    · simpa only [only, if_pos ha] using h a ha
    · simpa only [only, if_neg ha] using c.nil
  · intro a
    by_cases ha : a ∈ s.children
    · simpa only [only, if_pos ha] using hl a ha
    · simpa only [only, if_neg ha] using Alike.refl default
  · intro p j hs hj
    by_cases ha : j ∈ s.children
    · have hj := Shape.mem_slotted_of_usingJoin hj
      simpa only [only, if_pos ha] using hjoin j (hs ▸ hj)
    · simpa only [only, if_neg ha, List.tail_nil] using c.nil

end Congruence

end Layout

namespace Node

theorem piecesIn_mk (d : Dialect) (s : Shape Node) (parent : Option Kind) :
    piecesIn d ⟨s⟩ parent =
      Layout.pieces d parent (s.map fun c => (c, c.piecesIn d (some s.kind))) := by
  rw [piecesIn, para_mk, Shape.map_map]
  rfl

end Node

end SqlTree
