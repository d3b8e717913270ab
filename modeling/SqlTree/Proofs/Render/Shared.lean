import SqlTree.Proofs.Pass.Adapting
import SqlTree.Proofs.Render.Congruence
import SqlTree.Proofs.Tree.Every

/-!
# One skeleton for all dialects

The dialects differ in how they quote names, number places and write a handful of forms.  A tree
without these forms is adapted to itself and laid out alike everywhere, so one sequence of words,
names and numbered places is its text in every dialect (`Node.compile_shared`).
-/

namespace SqlTree

/-- A part of a text before names are quoted and places are written. -/
inductive Segment where
  | words (s : String)
  | name (s : String)
  /-- The place of the parameter with that number, counted from 1. -/
  | place (i : Nat)

namespace Segment

def text (d : Dialect) : Segment → String
  | .words s => s
  | .name s => d.quote s
  | .place i => d.placeholder i

def place? : Segment → Option Nat
  | .place i => some i
  | _ => none

end Segment

namespace Shape

/-- Forms that no dialect writes or rewrites in a way of its own, and whose values are bound. -/
def plain {α : Type} : Shape α → Bool
  | .limit _ => false
  | .offset _ => false
  | .returning _ => false
  | .defaultInsertValue => false
  | .value _ immediate => !immediate
  | .columnDefinition p => !p.autoIncrement
  | .insertQuery p => !p.ignore
  | _ => true

/-- Comparisons by `is` or `is not` with a truth value on the right. -/
def testsTruth : Shape Node → Bool
  | .binaryOperation _ ⟨.operator .is⟩ ⟨.value (.bool _) _⟩ => true
  | .binaryOperation _ ⟨.operator .isNot⟩ ⟨.value (.bool _) _⟩ => true
  | _ => false

/-- Shapes about which no dialect is asked. -/
def shared (s : Shape Node) : Bool := s.plain && !s.testsTruth

theorem plain_map {α β : Type} (f : α → β) (s : Shape α) : (s.map f).plain = s.plain := by
  rw [map_eq_each]
  cases s <;> rfl

theorem plain_of_shared {s : Shape Node} (h : s.shared = true) : s.plain = true :=
  (Bool.and_eq_true_iff.mp h).1

theorem not_isTest_of_shared {s : Shape Node} (h : s.shared = true) : ¬ Node.IsTest ⟨s⟩ := by
  intro ht
  cases ht with
  | mk l ho b i =>
    rename_i o o'
    cases o with
    | is => cases h
    | isNot => cases h
    | _ => cases ho

end Shape

namespace Select

/-- A select without limit and offset is cut to no window. -/
theorem paginate_eq_self (style : Pagination) {p : Select Node} (hl : p.limit = none)
    (ho : p.offset = none) : p.paginate style = p := by
  have hrows : p.limitRows? = none := by simp [limitRows?, hl]
  cases style with
  | limitOffset => rfl
  | fetchNext => simp [paginate, limitAsFetch, hrows]
  | topOrFetch => simp [paginate, limitAsTop, ho, hrows]

end Select

namespace Node

theorem kind_of_shared {n : Node} (h : n.Every fun s => s.shared = true) :
    n.kind ≠ .limit ∧ n.kind ≠ .offset := by
  obtain ⟨s⟩ := n
  have hs := Shape.plain_of_shared (every_mk.mp h).1
  constructor
  · intro hk
    cases s with
    | limit rows => cases hs
    | _ => cases hk
  · intro hk
    cases s with
    | offset rows => cases hs
    | _ => cases hk

theorem adapt_shared (d : Dialect) {s : Shape Node} (hw : wellFormed ⟨s⟩ = true)
    (h : Every (fun s => s.shared = true) ⟨s⟩) : d.adapt ⟨s⟩ = ⟨s⟩ := by
  obtain ⟨hs, hchildren⟩ := every_mk.mp h
  have hslot : ∀ k n, (Slot.only k, n) ∈ s.slotted → n.kind = k ∧ n.kind ≠ .limit ∧
      n.kind ≠ .offset := by
    intro k n hn
    exact ⟨(eq_of_beq (wellFormed_mk_iff.mp hw _ hn).1).symm,
      kind_of_shared (hchildren n (Shape.mem_children_of_mem_slotted hn))⟩
  cases s with
  | selectQuery p =>
    have hlimit : p.limit = none := by
      cases hp : p.limit with
      | none => rfl
      | some n =>
        obtain ⟨hk, hne, -⟩ := hslot .limit n
          (by simp [Shape.slotted, Shape.fields, Select.fields, Field.slotted, hp])
        exact absurd hk hne
    have hoffset : p.offset = none := by
      cases hp : p.offset with
      | none => rfl
      | some n =>
        obtain ⟨hk, -, hne⟩ := hslot .offset n
          (by simp [Shape.slotted, Shape.fields, Select.fields, Field.slotted, hp])
        exact absurd hk hne
    have hself : ∀ style bits,
        paginateNode style bits ⟨.selectQuery p⟩ = ⟨.selectQuery p⟩ := by
      intro style bits
      rw [paginateNode, p.paginate_eq_self style hlimit hoffset]
    cases d with
    | mssql => exact hself _ true
    | oracle => exact hself _ false
    | _ => rfl
  | binaryOperation l op r =>
    cases d with
    | mssql => exact bitComparison_eq_self (Shape.not_isTest_of_shared hs)
    | _ => rfl
  | _ => exact d.adapt_eq_self Kind.noConfusion Kind.noConfusion

/-- Nothing is rewritten where no dialect is asked. -/
theorem rewrite_adapt_shared (d : Dialect) {n : Node} (hw : n.wellFormed = true)
    (h : n.Every fun s => s.shared = true) : n.rewrite d.adapt = n := by
  induction n using childrenInduction with
  | h s ih =>
    have hself : s.map (rewrite d.adapt) = s.map id :=
      s.map_congr fun c hc => ih c hc (wellFormed_of_mem_children hw hc) ((every_mk.mp h).2 c hc)
    rw [rewrite_mk, hself, s.map_id, adapt_shared d hw h]

end Node

namespace Layout

/-- Plain forms are laid out alike. -/
theorem pieces_plain (d e : Dialect) (parent : Option Kind) {s : Shape Part}
    (h : s.plain = true) : pieces d parent s = pieces e parent s := by
  cases s with
  | limit n => cases h
  | offset n => cases h
  | returning selections => cases h
  | defaultInsertValue => cases h
  | valueList items => cases items <;> rfl
  | columnDefinition p =>
    have hp : p.autoIncrement = false := (Bool.not_eq_true' _).mp h
    simp only [pieces, columnDefinition, hp, sqlIf, Bool.false_eq_true, if_false]
  | insertQuery p =>
    have hp : p.ignore = false := (Bool.not_eq_true' _).mp h
    simp only [pieces, insert, insertVerb, ignoresAtEnd, hp, Bool.false_and, Bool.false_eq_true,
      if_false]
  | _ => rfl

end Layout

namespace Node

theorem piecesIn_shared (d e : Dialect) {n : Node} (h : n.Every fun s => s.shared = true)
    (parent : Option Kind) : n.piecesIn d parent = n.piecesIn e parent := by
  induction n using childrenInduction generalizing parent with
  | h s ih =>
    obtain ⟨hs, hchildren⟩ := every_mk.mp h
    have hmap : (s.map fun c => (c, c.piecesIn d (some s.kind))) =
        s.map fun c => (c, c.piecesIn e (some s.kind)) :=
      s.map_congr fun c hc => by rw [ih c hc (hchildren c hc)]
    rw [piecesIn_mk, piecesIn_mk, hmap]
    apply Layout.pieces_plain
    rw [Shape.plain_map]
    exact Shape.plain_of_shared hs

end Node

namespace Piece

/-- Pieces whose text depends on the dialect by its quoting and its placeholders only. -/
def isShared : Piece → Bool
  | .literal _ => false
  | .refused _ => false
  | _ => true

/-- The segments of the pieces after `n` parameters. -/
def segments : Nat → List Piece → List Segment
  | _, [] => []
  | n, .text s :: ps => .words s :: segments n ps
  | n, .verbatim s :: ps => .words s :: segments n ps
  | n, .name s :: ps => .name s :: segments n ps
  | n, .parameter _ :: ps => .place (n + 1) :: segments (n + 1) ps
  | n, .literal _ :: ps => segments n ps
  | n, .refused _ :: ps => segments n ps

variable {ps : List Piece}

theorem refusal?_shared (h : ∀ p ∈ ps, p.isShared = true) : refusal? ps = none := by
  induction ps with
  | nil => rfl
  | cons p ps ih =>
    obtain ⟨hp, hps⟩ := List.forall_mem_cons.mp h
    cases p with
    | refused f => cases hp
    | _ => exact ih hps

theorem texts_shared (d : Dialect) (n : Nat) (h : ∀ p ∈ ps, p.isShared = true) :
    texts d n ps = (segments n ps).map (Segment.text d) := by
  induction ps generalizing n with
  | nil => rfl
  | cons p ps ih =>
    obtain ⟨hp, hps⟩ := List.forall_mem_cons.mp h
    cases p with
    | literal v => cases hp
    | refused f => cases hp
    | _ => simp only [texts, segments, List.map_cons, Segment.text, ih _ hps]

/-- Places are numbered through. -/
theorem places_segments (n : Nat) (ps : List Piece) :
    (segments n ps).filterMap Segment.place? = List.range' (n + 1) (parameters ps).length := by
  induction ps generalizing n with
  | nil => rfl
  | cons p ps ih =>
    cases p with
    | parameter v =>
      rw [segments, parameters, List.length_cons, List.range'_succ, ← ih]
      rfl
    | _ => exact ih n

/-- In a dialect that refuses nothing all words are shared. -/
theorem isShared_congruence :
    Layout.Congruence .postgres .postgres fun ps _ => ∀ p ∈ ps, p.isShared = true where
  nil := by simp
  append h h' := List.forall_mem_append.mpr ⟨h, h'⟩
  text _ := by simp [isShared]
  verbatim _ := by simp [isShared]
  defaultValue := by decide
  autoIncrement := by decide
  rows := by decide
  returning := by decide
  insertVerb b c := by cases b <;> cases c <;> decide
  ignoresAtEnd b c s := by
    cases b <;> cases c <;> simp [Layout.sqlIf, Dialect.insertIgnore, isShared]

theorem isShared_parameters (vs : List Value) :
    ∀ p ∈ Layout.parameters vs, p.isShared = true := by
  induction vs with
  | nil => simp [Layout.parameters]
  | cons v vs ih =>
    cases vs with
    | nil => simp [Layout.parameters, isShared]
    | cons w vs =>
      exact List.forall_mem_cons.mpr ⟨rfl, List.forall_mem_cons.mpr ⟨rfl, ih⟩⟩

end Piece

namespace Node

theorem isShared_piecesIn {n : Node} (h : n.Every fun s => s.shared = true)
    (parent : Option Kind) : ∀ p ∈ n.piecesIn .postgres parent, p.isShared = true := by
  induction n using childrenInduction generalizing parent with
  | h s ih =>
    obtain ⟨hs, hchildren⟩ := every_mk.mp h
    have hc := Piece.isShared_congruence
    have hchild := fun c hm => ih c hm (hchildren c hm) (some s.kind)
    rw [piecesIn_mk]
    apply hc.pieces (G := fun c => (c, c.piecesIn .postgres (some s.kind)))
    · exact hchild
    · exact fun c _ => .refl c
    · intro hleaf
      rw [Shape.map_eq_each]
      obtain ⟨name, rfl⟩ | ⟨v, immediate, rfl⟩ | ⟨vs, rfl⟩ := Layout.eq_of_isLeaf hleaf
      · simp [Shape.each, Layout.pieces, Piece.isShared]
      · cases immediate with
        | true => cases hs
        | false => simp [Shape.each, Layout.pieces, Piece.isShared]
      · refine List.forall_mem_append.mpr ⟨List.forall_mem_append.mpr ⟨hc.sql "(", ?_⟩, hc.sql ")"⟩
        exact Piece.isShared_parameters vs
    · intro j hj p hp
      exact hchild j (Shape.mem_children_of_mem_slotted hj) p (List.mem_of_mem_tail hp)

/-- A tree about which no dialect is asked has its pieces everywhere. -/
theorem compile_of_pieces (d : Dialect) {n : Node} (ps : List Piece)
    (hw : n.wellFormed = true) (h : n.Every fun s => s.shared = true)
    (hps : n.pieces .postgres = ps) :
    n.compile d = .ok ⟨n, Piece.sql d ps, Piece.parameters ps⟩ := by
  have hself := rewrite_adapt_shared d hw h
  have hpieces : n.pieces d = ps := (piecesIn_shared d .postgres h none).trans hps
  have hshared : ∀ p ∈ ps, p.isShared = true := hps ▸ isShared_piecesIn h none
  have hok := compile_of_no_refusal (d := d) hw (by
    rw [hself, hpieces]
    exact Piece.refusal?_shared hshared)
  rw [hok, hself, hpieces]

/-- Where no dialect is asked, all of them write one sequence of words, names and numbered places,
each in its quoting and with its placeholders, and bind one list of values. -/
theorem compile_shared {n : Node} (hw : n.wellFormed = true)
    (h : n.Every fun s => s.shared = true) :
    ∃ (segments : List Segment) (values : List Value),
      segments.filterMap Segment.place? = List.range' 1 values.length ∧
        ∀ d : Dialect, n.compile d =
          .ok ⟨n, .join (segments.map (Segment.text d)), values⟩ := by
  have hshared : ∀ p ∈ n.pieces .postgres, p.isShared = true := isShared_piecesIn h none
  refine ⟨Piece.segments 0 (n.pieces .postgres), Piece.parameters (n.pieces .postgres),
    Piece.places_segments 0 _, fun d => ?_⟩
  have hpieces : n.pieces d = n.pieces .postgres := piecesIn_shared d .postgres h none
  have hself := rewrite_adapt_shared d hw h
  have hok := compile_of_no_refusal (d := d) hw (by
    rw [hself, hpieces]
    exact Piece.refusal?_shared hshared)
  rw [hok, hself, hpieces, Piece.sql, Piece.texts_shared d 0 hshared]

/-- A select with a function, a list of values, a raw fragment and a bound number. -/
theorem compile_shared_select :
    let n : Node := ⟨.selectQuery {
      selections := [⟨.selection ⟨.aliased ⟨.function "coalesce" [⟨.column ⟨.identifier "a"⟩⟩,
        ⟨.value (.int 1) false⟩]⟩ ⟨.identifier "x"⟩⟩⟩]
      fromClause := some ⟨.fromClause [⟨.table ⟨.schemableIdentifier none ⟨.identifier "t"⟩⟩⟩]⟩
      whereClause := some ⟨.whereClause ⟨.and
        ⟨.binaryOperation ⟨.column ⟨.identifier "a"⟩⟩ ⟨.operator .isIn⟩
          ⟨.valueList (.primitive [.int 7, .null])⟩⟩
        ⟨.raw ["b = ", ""] [⟨.value (.bool true) false⟩]⟩⟩⟩
      fetch := some ⟨.fetch ⟨.value (.int 10) false⟩ .rowsOnly⟩ }⟩
    n.wellFormed = true ∧ n.Every (fun s => s.shared = true) ∧
      ∃ (segments : List Segment) (values : List Value),
        segments.filterMap Segment.place? = List.range' 1 values.length ∧
          ∀ d : Dialect, n.compile d =
            .ok ⟨n, .join (segments.map (Segment.text d)), values⟩ := by
  intro n
  have hw : n.wellFormed = true := by decide
  have h : n.Every fun s => s.shared = true := by decide
  exact ⟨hw, h, compile_shared hw h⟩

end Node

end SqlTree
