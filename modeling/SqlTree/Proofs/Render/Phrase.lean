import SqlTree.Proofs.Pass.Settled
import SqlTree.Proofs.Render.Congruence

/-!
# Phrases

What a layout writes is a phrase: words, names, values and the pieces of children, with words
between any two that are not words, and parentheses in pairs.  The one place where nothing stands
between two parts is behind the sign of a negation, so what phrases keep and negations keep holds
of whole trees (`Node.piecesInduction`).
-/

namespace SqlTree

namespace Layout

/-- The characters of fixed words. -/
def isWordChar (c : Char) : Bool := c.isLower || [' ', ',', '.', '=', '_'].contains c

def isWord (s : String) : Bool := !s.toList.isEmpty && s.toList.all isWordChar

/-- A word, or none, and a parenthesis. -/
def isOpening (s : String) : Bool :=
  s.toList.getLast? == some '(' && s.toList.dropLast.all isWordChar

/-- Pieces put together from parts `P` and texts `V` as they were given.  The flags tell whether
something that is not a word may stand directly before the phrase, and directly after it. -/
inductive Phrase (V : String → Prop) (P : List Piece → Prop) : Bool → Bool → List Piece → Prop
  | nil : Phrase V P true true []
  | blank {l r : Bool} {ps : List Piece} (h : Phrase V P l r ps) : Phrase V P l r (.text "" :: ps)
  | refused {l r : Bool} {ps : List Piece} (f : Feature) (h : Phrase V P l r ps) :
    Phrase V P l r (.refused f :: ps)
  | name (s : String) : Phrase V P false false [.name s]
  | parameter (v : Value) : Phrase V P false false [.parameter v]
  | literal (v : Value) : Phrase V P false false [.literal v]
  | verbatim {s : String} (h : V s) : Phrase V P false false [.verbatim s]
  | symbol (o : Operator) : Phrase V P false false [.text o.symbol]
  | everything : Phrase V P false false [.text "*"]
  | part {ps : List Piece} (h : P ps) : Phrase V P false false ps
  | after {l r : Bool} {s : String} {ps : List Piece} (h : Phrase V P l r ps)
    (hs : isWord s = true) : Phrase V P true r (.text s :: ps)
  | before {l r : Bool} {s : String} {ps : List Piece} (h : Phrase V P l r ps)
    (hs : isWord s = true) : Phrase V P l true (ps ++ [.text s])
  | group {l r : Bool} {s : String} {ps : List Piece} (h : Phrase V P l r ps)
    (hs : isOpening s = true) : Phrase V P true true (.text s :: ps ++ [.text ")"])
  | append {l r l' r' : Bool} {ps qs : List Piece} (h : Phrase V P l r ps)
    (h' : Phrase V P l' r' qs) (hgap : (r || l') = true) :
    Phrase V P (l && l') (r && r') (ps ++ qs)
  | weaken {l r l' r' : Bool} {ps : List Piece} (hl : l' = true → l = true)
    (hr : r' = true → r = true) (h : Phrase V P l r ps) : Phrase V P l' r' ps

namespace Phrase

variable {d : Dialect} {parent : Option Kind} {V : String → Prop} {P : List Piece → Prop}
  {l r l' r' : Bool} {ps qs : List Piece}

theorem loose (h : Phrase V P l r ps) : Phrase V P false false ps := h.weaken nofun nofun

theorem looseEnd (h : Phrase V P true r ps) : Phrase V P true false ps := h.weaken id nofun

/-- A phrase and what may stand after anything. -/
theorem andTail (h : Phrase V P false false ps) (h' : Phrase V P true r' qs) :
    Phrase V P false false (ps ++ qs) := h.append h' rfl

/-- What anything may stand after, and a phrase. -/
theorem andPart (h : Phrase V P l true ps) (h' : Phrase V P l' r' qs) :
    Phrase V P false r' (ps ++ qs) := by
  have hqs : Phrase V P false r' qs := h'.weaken nofun id
  exact (h.append hqs rfl).weaken nofun (by simp)

theorem andWord (h : Phrase V P l r ps) {s : String} (hs : isWord s = true) :
    Phrase V P false true (ps ++ Layout.sql s) := (h.before hs).weaken nofun id

theorem words (h : Phrase V P true true ps) (h' : Phrase V P true true qs) :
    Phrase V P true true (ps ++ qs) := h.append h' rfl

theorem tails (h : Phrase V P true false ps) (h' : Phrase V P true false qs) :
    Phrase V P true false (ps ++ qs) := h.append h' rfl

theorem word {s : String} (hs : isWord s = true) : Phrase V P true true (Layout.sql s) :=
  Phrase.nil.after hs

theorem sqlIf (b : Bool) {s : String} (hs : isWord s = true) :
    Phrase V P true true (Layout.sqlIf b s) := by
  cases b
  · exact .nil
  · exact word hs

theorem unlessTrue (b : Bool) (h : Phrase V P true r ps) :
    Phrase V P true r (if b then [] else ps) := by
  cases b
  · exact h
  · exact Phrase.nil.weaken id (fun _ => rfl)

theorem enclosed (k : Kind) (parent : Option Kind) (h : Phrase V P l r ps) :
    Phrase V P false false (Layout.enclosed k parent ps) := by
  unfold Layout.enclosed
  split
  · exact (Phrase.group h rfl).loose
  · exact h.loose

section Parts

variable {α : Type} {F : α → Part} (h : ∀ a, Phrase V P false false (F a).2)
include h

theorem commas (as : List α) : Phrase V P false false (Layout.commas (as.map F)) := by
  induction as with
  | nil => exact Phrase.nil.loose
  | cons a as ih =>
    cases as with
    | nil => exact h a
    | cons b as => exact andTail (h a) (ih.after rfl)

theorem listed (as : List α) : Phrase V P true true (Layout.listed (as.map F)) :=
  (commas h as).group rfl

theorem after? {s : String} (hs : isWord s = true) (o : Option α) :
    Phrase V P true false (Layout.after s (o.map F)) := by
  cases o with
  | none => exact Phrase.nil.looseEnd
  | some a => exact (h a).after hs

theorem clause (o : Option α) : Phrase V P true false (Layout.clause (o.map F)) := after? h rfl o

theorem clauses (as : List α) : Phrase V P true false (Layout.clauses (as.map F)) := by
  induction as with
  | nil => exact Phrase.nil.looseEnd
  | cons a as ih => exact tails ((h a).after rfl) ih

theorem leading (o : Option α) : Phrase V P false true (Layout.leading (o.map F)) := by
  cases o with
  | none => exact Phrase.nil.weaken nofun id
  | some a => exact andWord (h a) rfl

theorem constraintName (o : Option α) :
    Phrase V P true true (Layout.constraintName (o.map F)) := by
  cases o with
  | none => exact .nil
  | some a => exact Phrase.before (Phrase.after (h a) rfl) rfl

theorem modifiers (as : List α) : Phrase V P true false (Layout.modifiers (as.map F)) := by
  rw [Layout.modifiers, Layout.byPriority_map (fun _ => rfl)]
  exact clauses h _

omit h in
/-- Lists that are left out when they are empty. -/
theorem unlessEmpty (as : List α) (hps : Phrase V P true r ps) :
    Phrase V P true r (if (as.map F).isEmpty then [] else ps) := unlessTrue _ hps

theorem aggregate (p : Aggregate α) (hname : V p.name) :
    Phrase V P false false (Layout.aggregate (p.each F)) := by
  obtain ⟨name, arguments, distinct, orderBy, filter, window⟩ := p
  have harguments : Phrase V P true true (.text "(" ::
      (Layout.sqlIf distinct "distinct " ++ Layout.commas (arguments.map F) ++
        Layout.clause (orderBy.map F)) ++ [.text ")"]) :=
    group (andTail (andPart (sqlIf distinct rfl) (commas h arguments)) (clause h orderBy)) rfl
  refine andTail (andTail ?_ (?_ : Phrase V P true true _)) (?_ : Phrase V P true true _)
  · simpa [Layout.sql, Aggregate.each] using (Phrase.verbatim hname).andTail harguments
  · cases filter with
    | none => exact .nil
    | some a => exact (h a).group rfl
  · cases window with
    | none => exact .nil
    | some a => exact (h a).group rfl

theorem select (p : Select α) : Phrase V P false false (Layout.select (p.each F)) := by
  unfold Layout.select Select.each
  refine andTail ?_ (modifiers h _)
  iterate 4 refine andTail ?_ (clause h _)
  refine andTail ?_ (clauses h _)
  iterate 3 refine andTail ?_ (clause h _)
  refine andTail ?_ (clauses h _)
  refine andTail ?_ (clause h _)
  refine andTail ?_ (unlessEmpty _ ((commas h _).after rfl))
  refine andTail ?_ (clause h _)
  refine andTail ?_ (modifiers h _)
  refine andTail ?_ (unlessEmpty _ ((listed h _).after rfl))
  exact (andWord (andPart (leading h _) (leading h _)) rfl).loose

omit h in
theorem insertVerb (d : Dialect) (ignore replaces : Bool) :
    Phrase V P true true (Layout.insertVerb d ignore replaces) := by
  cases ignore with
  | false => cases replaces <;> exact word rfl
  | true =>
    cases d with
    | mssql => exact .refused _ .nil
    | oracle => exact .refused _ .nil
    | _ => exact word rfl

theorem insert (d : Dialect) (p : Insert α) :
    Phrase V P false false (Layout.insert d (p.each F)) := by
  unfold Layout.insert Insert.each
  iterate 2 refine andTail ?_ (clause h _)
  refine andTail ?_ (sqlIf _ rfl)
  refine andTail ?_ (clause h _)
  refine andTail ?_ (sqlIf _ rfl)
  refine andTail ?_ (clause h _)
  refine andTail ?_ (unlessEmpty _ ((listed h _).after rfl))
  refine andTail ?_ (after? h rfl _)
  exact (andPart (andPart (leading h _) (leading h _)) (insertVerb d _ _)).loose

theorem onConflict (p : OnConflict α) :
    Phrase V P false false (Layout.onConflict (p.each F)) := by
  obtain ⟨columns, constraint, indexExpression, indexWhere, updates, updateWhere, doNothing⟩ := p
  have haction : Phrase V P true false
      (if doNothing then Layout.sql " do nothing"
        else if (updates.map F).isEmpty then []
        else Layout.sql " do update set " ++ Layout.commas (updates.map F) ++
          Layout.clause (updateWhere.map F)) := by
    cases doNothing with
    | true => exact (word rfl).looseEnd
    | false =>
      exact unlessEmpty updates (tails ((commas h updates).after rfl) (clause h updateWhere))
  refine andTail (andTail (andTail (word rfl).loose (?_ : Phrase V P true false _)) (clause h _))
    haction
  cases columns with
  | cons a as => exact ((listed h (a :: as)).after rfl).looseEnd
  | nil =>
    cases constraint with
    | some a => exact (h a).after rfl
    | none =>
      cases indexExpression with
      | some a => exact ((h a).group rfl).looseEnd
      | none => exact Phrase.nil.looseEnd

theorem update (p : Update α) : Phrase V P false false (Layout.update (p.each F)) := by
  obtain ⟨table, fromClause, joins, whereClause, updates, returning, withClause, limit, explain⟩ :=
    p
  have hplain : ∀ o : Option α, Phrase V P true false
      (if (o.map F).isNone then Layout.clauses (joins.map F) else []) := by
    intro o
    cases o with
    | none => exact clauses h joins
    | some a => exact Phrase.nil.looseEnd
  have hfrom : ∀ o : Option α, Phrase V P true false
      (if (o.map F).isNone then []
        else Layout.clause (o.map F) ++ Layout.clauses (joins.map F)) := by
    intro o
    cases o with
    | none => exact Phrase.nil.looseEnd
    | some a => exact tails (clause h (some a)) (clauses h joins)
  have hhead : Phrase V P false false (Layout.leading (explain.map F) ++
      Layout.leading (withClause.map F) ++ Layout.sql "update" ++ Layout.clause (table.map F) ++
      (if (fromClause.map F).isNone then Layout.clauses (joins.map F) else [])) :=
    andTail (andTail (andWord (andPart (leading h _) (leading h _)) rfl).loose (clause h _))
      (hplain fromClause)
  have hset := andPart (andWord hhead (s := " set ") rfl) (commas h updates)
  exact andTail (andTail (andTail (andTail hset (hfrom fromClause)) (clause h whereClause))
    (clause h limit)) (clause h returning)

theorem delete (p : Delete α) : Phrase V P false false (Layout.delete (p.each F)) := by
  have hfrom : Phrase V P true false
      (if hasNoItems (F p.fromClause).1 then [] else Layout.sql " " ++ (F p.fromClause).2) :=
    unlessTrue _ ((h p.fromClause).after rfl)
  unfold Layout.delete Delete.each
  iterate 4 refine andTail ?_ (clause h _)
  refine andTail ?_ (clauses h _)
  refine andTail ?_ (clause h _)
  refine andTail ?_ hfrom
  exact (andWord (andPart (leading h _) (leading h _)) rfl).loose

theorem merge (p : Merge α) (hj : ∀ j, p.usingJoin = some j → Phrase V P false false (F j).2.tail) :
    Phrase V P false false (Layout.merge (p.each F)) := by
  obtain ⟨into, usingJoin, branches, withClause⟩ := p
  have hinto := andPart (andWord (leading h withClause) (s := "merge into ") rfl) (h into)
  refine andTail (andTail hinto (?_ : Phrase V P true false _)) (clauses h branches)
  cases usingJoin with
  | none => exact Phrase.nil.looseEnd
  | some j => exact (hj j rfl).after rfl

theorem createTable (p : CreateTable α) :
    Phrase V P false false (Layout.createTable (p.each F)) := by
  obtain ⟨table, columns, constraints, temporary, ifNotExists, onCommit⟩ := p
  have hitems : Phrase V P true true (Layout.listed (columns.map F ++ constraints.map F)) := by
    rw [← List.map_append]
    exact listed h _
  have hcreate : Phrase V P true true (Layout.sql "create " ++
      Layout.sqlIf temporary "temporary " ++ Layout.sql "table " ++
      Layout.sqlIf ifNotExists "if not exists ") :=
    words (words (words (word rfl) (sqlIf _ rfl)) (word rfl)) (sqlIf _ rfl)
  refine andTail (andPart (andWord (andPart hcreate (h table)) rfl) hitems).loose
    (?_ : Phrase V P true false _)
  cases onCommit with
  | none => exact Phrase.nil.looseEnd
  | some a => cases a <;> exact (word rfl).looseEnd

theorem columnDefinition (d : Dialect) (p : ColumnDefinition α) :
    Phrase V P false false (Layout.columnDefinition d (p.each F)) := by
  have hincrement : Phrase V P true true
      (Layout.sqlIf p.autoIncrement (" " ++ d.autoIncrement)) := by
    cases d <;> exact sqlIf _ rfl
  unfold Layout.columnDefinition ColumnDefinition.each
  iterate 2 refine andTail ?_ (clause h _)
  refine andTail ?_ hincrement
  iterate 4 refine andTail ?_ (sqlIf _ rfl)
  iterate 2 refine andTail ?_ (clause h _)
  refine andTail ?_ (sqlIf _ rfl)
  exact andPart (andWord (h _) rfl) (h _)

theorem generated (p : Generated α) :
    Phrase V P false false (Layout.generated (p.each F)) := by
  obtain ⟨byDefault, always, identity, stored, expression⟩ := p
  have hmanner : Phrase V P true true
      (if always then Layout.sql "always " else Layout.sqlIf byDefault "by default ") := by
    cases always
    · exact sqlIf _ rfl
    · exact word rfl
  refine (words (words (words (words (word rfl) hmanner) (word rfl)) ?_) (sqlIf _ rfl)).loose
  cases expression with
  | none => exact word rfl
  | some a =>
    cases identity
    · exact (h a).group rfl
    · exact word rfl

theorem references (p : References α) :
    Phrase V P false false (Layout.references (p.each F)) := by
  obtain ⟨table, columns, onDelete, onUpdate⟩ := p
  have htable : Phrase V P false false (Layout.sql "references " ++ (F table).2) :=
    andPart (word rfl) (h table)
  refine andTail (andTail (andPart (andWord htable rfl) (listed h columns)).loose
    (?_ : Phrase V P true false _)) (?_ : Phrase V P true false _)
  · cases onDelete with
    | none => exact Phrase.nil.looseEnd
    | some a => cases a <;> exact (word rfl).looseEnd
  · cases onUpdate with
    | none => exact Phrase.nil.looseEnd
    | some a => cases a <;> exact (word rfl).looseEnd

theorem createIndex (p : CreateIndex α) (hmethod : ∀ s ∈ p.method, V s) :
    Phrase V P false false (Layout.createIndex (p.each F)) := by
  obtain ⟨name, table, columns, unique, ifNotExists, method, whereClause, nullsNotDistinct⟩ := p
  unfold Layout.createIndex CreateIndex.each
  refine andTail (andTail (andTail ?_ (unlessEmpty _ ((listed h _).after rfl))) (sqlIf _ rfl))
    (clause h _)
  refine andTail (andTail (andPart (l := true) ?_ (h name)) (after? h rfl _))
    (?_ : Phrase V P true false _)
  · exact words (words (words (word rfl) (sqlIf _ rfl)) (word rfl)) (sqlIf _ rfl)
  · cases method with
    | none => exact Phrase.nil.looseEnd
    | some m => exact (Phrase.verbatim (hmethod m rfl)).after rfl

theorem createView (p : CreateView α) :
    Phrase V P false false (Layout.createView (p.each F)) := by
  unfold Layout.createView CreateView.each
  refine andTail (andTail (andPart (l := true) ?_ (h _)) (unlessEmpty _ ((listed h _).after rfl)))
    (after? h rfl _)
  refine words (words ?_ (word rfl)) (sqlIf _ rfl)
  exact words (words (words (word rfl) (sqlIf _ rfl)) (sqlIf _ rfl)) (sqlIf _ rfl)

theorem alterTable (p : AlterTable α) :
    Phrase V P false false (Layout.alterTable (p.each F)) := by
  unfold Layout.alterTable AlterTable.each
  iterate 2 refine andTail ?_ (clause h _)
  refine andTail ?_ (unlessEmpty _ ((commas h _).after rfl))
  iterate 2 refine andTail ?_ (after? h rfl _)
  exact andPart (word rfl) (h _)

theorem alterColumn (p : AlterColumn α) :
    Phrase V P false false (Layout.alterColumn (p.each F)) := by
  obtain ⟨column, dataType, setDefault, dropDefault, setNotNull, dropNotNull⟩ := p
  refine andTail (andPart (word rfl) (h column)) (?_ : Phrase V P true false _)
  cases dataType with
  | some a => exact (h a).after rfl
  | none =>
    cases setDefault with
    | some a => exact (h a).after rfl
    | none =>
      cases dropDefault
      · cases setNotNull
        · exact (sqlIf _ rfl).looseEnd
        · exact (word rfl).looseEnd
      · exact (word rfl).looseEnd

/-- A part in front of the name it qualifies. -/
theorem qualified {s : String} (hs : isWord s = true) (o : Option α) (a : α) :
    Phrase V P false false
      ((match o.map F with
        | some q => q.2 ++ Layout.sql s
        | none => []) ++ (F a).2) := by
  cases o with
  | none => exact h a
  | some q => exact andPart (andWord (h q) hs) (h a)

omit h in
theorem parameters (vs : List Value) : Phrase V P false false (Layout.parameters vs) := by
  induction vs with
  | nil => exact Phrase.nil.loose
  | cons v vs ih =>
    cases vs with
    | nil => exact .parameter v
    | cons w vs => exact andTail (.parameter v) (ih.after rfl)

/-- What is written before a fixed word, and what after it. -/
theorem between (a b : α) {s : String} (hs : isWord s = true) :
    Phrase V P false false ((F a).2 ++ Layout.sql s ++ (F b).2) :=
  andPart (andWord (h a) hs) (h b)

/-- A fixed word and a part. -/
theorem led (a : α) {s : String} (hs : isWord s = true) :
    Phrase V P false false (Layout.sql s ++ (F a).2) := andPart (word hs) (h a)

theorem orderByItem (a : α) (direction : Option OrderDirection) (nulls : Option NullsOrder) :
    Phrase V P false false
      (Layout.pieces d parent (.orderByItem (F a) direction nulls)) := by
  refine andTail (andTail (h a) (?_ : Phrase V P true false _)) (?_ : Phrase V P true false _)
  · cases direction with
    | none => exact Phrase.nil.looseEnd
    | some x => cases x <;> exact (word rfl).looseEnd
  · cases nulls with
    | none => exact Phrase.nil.looseEnd
    | some x => cases x <;> exact (word rfl).looseEnd

theorem top (a : α) (modifier : Option TopModifier) :
    Phrase V P false false (Layout.pieces d parent (.top (F a) modifier)) := by
  refine andTail ((h a).group rfl).loose (?_ : Phrase V P true false _)
  cases modifier with
  | none => exact Phrase.nil.looseEnd
  | some m => cases m <;> exact (word rfl).looseEnd

theorem selectModifier (modifier : Option SelectModifier) (fragment : Option α) (tables : List α) :
    Phrase V P false false
      (Layout.pieces d parent (.selectModifier modifier (fragment.map F) (tables.map F))) := by
  refine andTail ?_ (unlessEmpty tables ((commas h tables).after rfl))
  cases modifier with
  | some m => cases m <;> exact (word rfl).loose
  | none =>
    cases fragment with
    | none => exact Phrase.nil.loose
    | some a => exact h a

theorem commonTableExpression (name : α) (materialized : Option Bool) (a : α) :
    Phrase V P false false
      (Layout.pieces d parent (.commonTableExpression (F name) materialized (F a))) := by
  refine andPart (andPart (andWord (h name) rfl) (?_ : Phrase V P true true _)) (h a)
  cases materialized with
  | none => exact .nil
  | some b => cases b <;> exact word rfl

theorem piecesOfAll (s : Shape α) (hraw : s.kind = .raw → ∃ t, s = .raw [t] [])
    (hs : ∀ t ∈ s.verbatims, V t)
    (hneg : ∀ a b, s = .unaryOperation a b → isNegation (F a).1 = false)
    (hjoin : ∀ p j, s = .mergeQuery p → p.usingJoin = some j →
      Phrase V P false false (F j).2.tail) :
    Phrase V P false false (Layout.pieces d parent (s.map F)) := by
  rw [Shape.map_eq_each]
  cases s with
  | identifier a => exact .name a
  | schemableIdentifier a b => exact qualified h rfl a b
  | table a => exact h a
  | column a => exact h a
  | selectAll => exact .everything
  | reference a b => exact qualified h rfl a b
  | aliased a b => exact between h a b rfl
  | value v immediate =>
    cases immediate
    · exact .parameter v
    · exact .literal v
  | valueList items =>
    cases items with
    | primitive vs => exact ((parameters vs).group rfl).loose
    | expressions as => exact (listed h as).loose
  | values as => exact andPart (word rfl) (commas h as)
  | defaultInsertValue => cases d <;> exact (word rfl).loose
  | operator o => exact .symbol o
  | binaryOperation a b c => exact andPart (andWord (between h a b rfl) rfl) (h c)
  | unaryOperation a b =>
    simp only [Shape.each, Layout.pieces, hneg a b rfl]
    exact between h a b rfl
  | and a b => exact between h a b rfl
  | or a b => exact between h a b rfl
  | parens a => exact ((h a).group rfl).loose
  | raw ss as =>
    obtain ⟨t, ht⟩ := hraw rfl
    cases ht
    exact .verbatim (hs t List.mem_cons_self)
  | function a as => exact andTail (.verbatim (hs a List.mem_cons_self)) (listed h as).looseEnd
  | aggregateFunction p => exact aggregate h p (hs _ List.mem_cons_self)
  | caseExpr a as b c =>
    refine andTail (andWord (andTail ?_ (after? h rfl b)) rfl).loose (sqlIf c rfl).looseEnd
    exact andTail (andTail (word rfl).loose (clause h a)) (clauses h as)
  | when a b => exact andTail (led h a rfl) (after? h rfl b)
  | cast a b =>
    simpa [Shape.each, Layout.pieces, Layout.sql] using ((between h a b rfl).group rfl).loose
  | window a b =>
    cases a with
    | some a => exact andTail (h a) (clause h b)
    | none =>
      cases b with
      | none => exact Phrase.nil.loose
      | some b => exact (h b).blank
  | partitionBy as => exact andPart (word rfl) (commas h as)
  | partitionByItem a => exact h a
  | matched a b => exact (words (words (sqlIf a rfl) (word rfl)) (sqlIf b rfl)).loose
  | selection a => exact h a
  | fromClause as => exact andPart (word rfl) (commas h as)
  | join type a b =>
    refine andTail (led h a ?_) (clause h b)
    cases type <;> rfl
  | onClause a => exact led h a rfl
  | whereClause a => exact led h a rfl
  | having a => exact led h a rfl
  | groupBy as => exact andPart (word rfl) (commas h as)
  | groupByItem a => exact h a
  | orderBy as => exact andPart (word rfl) (commas h as)
  | orderByItem a direction nulls => exact orderByItem h a direction nulls
  | limit a => exact led h a rfl
  | offset a => exact andTail (led h a rfl) (sqlIf _ rfl).looseEnd
  | fetch a modifier =>
    refine (andWord (led h a rfl) ?_).loose
    cases modifier <;> rfl
  | top a modifier => exact top h a modifier
  | selectModifier modifier fragment tables => exact selectModifier h modifier fragment tables
  | setOperation o a all =>
    refine andPart (andWord (words (word ?_) (sqlIf all rfl)) rfl) (h a)
    cases o <;> rfl
  | withClause as recursive =>
    exact andPart (words (word rfl) (sqlIf recursive rfl)) (commas h as)
  | commonTableExpression a materialized b => exact commonTableExpression h a materialized b
  | commonTableExpressionName a as =>
    exact andTail (h a) (unlessEmpty as (listed h as).looseEnd)
  | returning as =>
    refine andPart (l := true) ?_ (commas h as)
    cases d <;> first | exact word rfl | exact .refused _ .nil
  | columnUpdate a b => exact between h a b rfl
  | onConflict p => exact onConflict h p
  | onDuplicateKey as => exact andPart (word rfl) (commas h as)
  | explain a => exact andTail (word rfl).loose (clause h a)
  | usingClause as => exact andPart (word rfl) (commas h as)
  | selectQuery p => exact enclosed _ _ (select h p)
  | insertQuery p => exact enclosed _ _ (insert h d p)
  | updateQuery p => exact enclosed _ _ (update h p)
  | deleteQuery p => exact enclosed _ _ (delete h p)
  | mergeQuery p => exact enclosed _ _ (merge h p fun j hj => hjoin p j rfl hj)
  | createTable p => exact createTable h p
  | columnDefinition p => exact columnDefinition h d p
  | dataType a => exact .verbatim (hs a List.mem_cons_self)
  | defaultValue a => exact led h a rfl
  | generated p => exact generated h p
  | references p => exact references h p
  | primaryKeyConstraint as a =>
    exact (words (words (constraintName h a) (word rfl)) (listed h as)).loose
  | uniqueConstraint as a distinct =>
    refine (words (words (words (constraintName h a) (word rfl)) ?_) (listed h as)).loose
    exact sqlIf distinct rfl
  | checkConstraint a b =>
    simpa [Shape.each, Layout.pieces, Layout.sql] using
      (words (constraintName h b) ((h a).group rfl)).loose
  | foreignKeyConstraint as a b =>
    refine andPart (words (words (words ?_ (word rfl)) (listed h as)) (word rfl)) (h a)
    exact constraintName h b
  | dropTable a ifExists cascade =>
    refine andTail (andPart (l := true) ?_ (h a)) (sqlIf cascade rfl).looseEnd
    exact words (word rfl) (sqlIf ifExists rfl)
  | createIndex p => exact createIndex h p fun m hm => hs m (Option.mem_toList.mpr hm)
  | dropIndex a b ifExists cascade =>
    refine andTail (andTail ?_ (after? h rfl b)) (sqlIf cascade rfl).looseEnd
    exact andPart (words (word rfl) (sqlIf ifExists rfl)) (h a)
  | createSchema a ifNotExists => exact andPart (words (word rfl) (sqlIf ifNotExists rfl)) (h a)
  | dropSchema a ifExists cascade =>
    refine andTail (andPart (l := true) ?_ (h a)) (sqlIf cascade rfl).looseEnd
    exact words (word rfl) (sqlIf ifExists rfl)
  | createView p => exact createView h p
  | dropView a ifExists cascade materialized =>
    refine andTail (andPart (l := true) ?_ (h a)) (sqlIf cascade rfl).looseEnd
    exact words (words (words (word rfl) (sqlIf materialized rfl)) (word rfl)) (sqlIf ifExists rfl)
  | alterTable p => exact alterTable h p
  | addColumn a => exact led h a rfl
  | dropColumn a => exact led h a rfl
  | renameColumn a b => exact andPart (andWord (led h a rfl) rfl) (h b)
  | alterColumn p => exact alterColumn h p
  | addConstraint a => exact led h a rfl
  | dropConstraint a ifExists cascade =>
    refine andTail (andPart (l := true) ?_ (h a)) (sqlIf cascade rfl).looseEnd
    exact words (word rfl) (sqlIf ifExists rfl)

omit h in
/-- What a join writes after the words that say what join it is. -/
theorem tail_of_join (s : Shape α) (hs : s.kind = .join)
    (h : ∀ a ∈ s.children, Phrase V P false false (F a).2) :
    Phrase V P false false (Layout.pieces d parent (s.map F)).tail := by
  rw [Shape.map_eq_each]
  cases s with
  | join type a b =>
    have ha := h a (by simp [Shape.children, Shape.fields, Field.toList])
    cases b with
    | none => exact andTail ha Phrase.nil.looseEnd
    | some b =>
      have hb := h b (by simp [Shape.children, Shape.fields, Field.toList])
      exact andTail ha (hb.after rfl)
  | _ => cases hs

omit h in
/-- What a shape writes is a phrase if the pieces of its children are. -/
theorem pieces (s : Shape α) (h : ∀ a ∈ s.children, Phrase V P false false (F a).2)
    (hraw : s.kind = .raw → ∃ t, s = .raw [t] []) (hs : ∀ t ∈ s.verbatims, V t)
    (hneg : ∀ a b, s = .unaryOperation a b → isNegation (F a).1 = false)
    (hjoin : ∀ j, (Slot.only .join, j) ∈ s.slotted → Phrase V P false false (F j).2.tail) :
    Phrase V P false false (Layout.pieces d parent (s.map F)) := by
  classical
  -- Off the children the map does not matter, so it may be taken to write nothing there.
  let only (a : α) : Part := if a ∈ s.children then F a else (default, [])
  have honly : s.map F = s.map only := s.map_congr fun a ha => (if_pos ha).symm
  rw [honly]
  refine piecesOfAll ?_ s hraw hs ?_ ?_
  · intro a
    by_cases ha : a ∈ s.children
    · simpa only [only, if_pos ha] using h a ha
    · simpa only [only, if_neg ha] using Phrase.nil.loose
  · intro a b hab
    by_cases ha : a ∈ s.children
    · simpa only [only, if_pos ha] using hneg a b hab
    · simp only [only, if_neg ha]
      rfl
  · intro p j hp hj
    by_cases ha : j ∈ s.children
    · have hj := Shape.mem_slotted_of_usingJoin hj
      simpa only [only, if_pos ha] using hjoin j (hp ▸ hj)
    · simpa only [only, if_neg ha, List.tail_nil] using Phrase.nil.loose

end Parts

end Phrase

theorem isNegation_iff {n : Node} : isNegation n = true ↔ n = ⟨.operator .negate⟩ := by
  constructor
  · intro h
    unfold isNegation at h
    split at h
    · rfl
    · cases h
  · rintro rfl
    rfl

end Layout

namespace Node

/-- The sign and the pieces of what it negates. -/
theorem piecesIn_negation (d : Dialect) (x : Node) (parent : Option Kind) :
    piecesIn d ⟨.unaryOperation ⟨.operator .negate⟩ x⟩ parent =
      .text "-" :: x.piecesIn d (some .unaryOperation) := by
  rw [piecesIn_mk, Shape.map_eq_each]
  rfl

/-- What phrases and negations keep holds of the pieces of every tree. -/
theorem piecesInduction {V : String → Prop} {Q : List Piece → Prop} (d : Dialect)
    (hphrase : ∀ ps, Layout.Phrase V Q false false ps → Q ps)
    (hneg : ∀ x : Node, Q (x.piecesIn d (some .unaryOperation)) →
      Q (.text "-" :: x.piecesIn d (some .unaryOperation)))
    {n : Node} (hn : n.Every (Shape.Settled V)) (parent : Option Kind) :
    Q (n.piecesIn d parent) := by
  -- A merge writes its join without the first piece, so joins are followed without it as well.
  suffices h : Q (n.piecesIn d parent) ∧ (n.kind = .join → Q (n.piecesIn d parent).tail) from h.1
  induction n using childrenInduction generalizing parent with
  | h s ih =>
    obtain ⟨hs, hchildren⟩ := every_mk.mp hn
    have ih : ∀ c ∈ s.children, ∀ parent,
        Q (c.piecesIn d parent) ∧ (c.kind = .join → Q (c.piecesIn d parent).tail) :=
      fun c hc => ih c hc (hchildren c hc)
    by_cases hnegation : ∃ x, s = .unaryOperation ⟨.operator .negate⟩ x
    · obtain ⟨x, rfl⟩ := hnegation
      rw [piecesIn_negation]
      refine ⟨hneg x (ih x ?_ _).1, nofun⟩
      simp [Shape.children, Shape.fields, Field.toList]
    · have hchild : ∀ c ∈ s.children,
          Layout.Phrase V Q false false (c.piecesIn d (some s.kind)) :=
        fun c hc => .part (ih c hc _).1
      refine ⟨hphrase _ ?_, fun hj => hphrase _ ?_⟩
      · rw [piecesIn_mk]
        refine Layout.Phrase.pieces s hchild hs.raw hs.verbatims ?_ ?_
        · intro a b hab
          by_contra ha
          obtain rfl : a = ⟨.operator .negate⟩ := Layout.isNegation_iff.mp (by simpa using ha)
          exact hnegation ⟨b, hab⟩
        · intro j hj
          have hkind := hs.fits _ hj
          exact .part ((ih j (Shape.mem_children_of_mem_slotted hj) _).2 (eq_of_beq hkind).symm)
      · rw [piecesIn_mk]
        exact Layout.Phrase.tail_of_join s hj hchild

end Node

end SqlTree
