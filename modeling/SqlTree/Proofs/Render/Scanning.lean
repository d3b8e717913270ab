import SqlTree.Proofs.Render.Literal
import SqlTree.Proofs.Render.Phrase

/-!
# Reading what was written

A database reads a statement piece by piece: no piece ends in the middle of a quoted token, and no
closing mark stands directly before an opening one (`Node.lexemes?_sql`).
-/

namespace SqlTree

namespace Piece

variable {d : Dialect} {l r l' r' : Bool} {ps qs : List Piece}

def chars (d : Dialect) (k : Nat) (ps : List Piece) : List Char :=
  (texts d k ps).flatMap String.toList

/-- The lexemes of the pieces after `k` parameters, each read by itself. -/
def lexemes (d : Dialect) (k : Nat) (ps : List Piece) : List Lexeme :=
  (texts d k ps).flatMap fun s => (d.lexemes? s).getD []

theorem toList_sql (d : Dialect) (ps : List Piece) : (sql d ps).toList = chars d 0 ps :=
  String.toList_join

theorem texts_append (d : Dialect) (k : Nat) (ps qs : List Piece) :
    texts d k (ps ++ qs) = texts d k ps ++ texts d (k + (parameters ps).length) qs := by
  induction ps generalizing k with
  | nil => rfl
  | cons p ps ih =>
    cases p with
    | parameter v =>
      simp only [List.cons_append, texts, parameters, List.length_cons, ih]
      rw [Nat.add_assoc, Nat.add_comm 1]
    | _ => simp only [List.cons_append, texts, parameters, ih]

theorem chars_append (d : Dialect) (k : Nat) (ps qs : List Piece) :
    chars d k (ps ++ qs) = chars d k ps ++ chars d (k + (parameters ps).length) qs := by
  rw [chars, texts_append, List.flatMap_append]
  rfl

theorem lexemes_append (d : Dialect) (k : Nat) (ps qs : List Piece) :
    lexemes d k (ps ++ qs) = lexemes d k ps ++ lexemes d (k + (parameters ps).length) qs := by
  rw [lexemes, texts_append, List.flatMap_append]
  rfl

theorem lexemes_cons (k : Nat) (p : Piece) (ps : List Piece) :
    lexemes d k (p :: ps) = lexemes d k [p] ++ lexemes d (k + (parameters [p]).length) ps :=
  lexemes_append d k [p] ps

/-- Pieces that are read on their own, whatever their parameters are numbered. -/
def Scanned (d : Dialect) (l r : Bool) (ps : List Piece) : Prop :=
  ∀ k, d.Scans l r (chars d k ps) (lexemes d k ps)

/-- Pieces without a mark. -/
def Unmarked (d : Dialect) : Piece → Prop
  | .text s => ∀ c ∈ s.toList, d.Unmarked c
  | .verbatim s => ∀ c ∈ s.toList, d.Unmarked c
  | _ => True

theorem lexemes_of_texts {k : Nat} {s : String} {ls : List Lexeme} (hs : texts d k ps = [s])
    (h : d.Scans l r s.toList ls) : chars d k ps = s.toList ∧ lexemes d k ps = ls := by
  simp [chars, lexemes, hs, h.lexemes?]

theorem lexemes_text {s : String} (hs : ∀ c ∈ s.toList, d.Unmarked c) (k : Nat) :
    chars d k [.text s] = s.toList ∧ lexemes d k [.text s] = s.toList.map .bare :=
  lexemes_of_texts rfl (.bare hs)

namespace Scanned

theorem nil : Scanned d true true [] := fun _ => .nil

theorem weaken (h : Scanned d l r ps) (hl : l' = true → l = true) (hr : r' = true → r = true) :
    Scanned d l' r' ps := fun k => (h k).weaken hl hr

theorem append (h : Scanned d l r ps) (h' : Scanned d l' r' qs) (hgap : (r || l') = true) :
    Scanned d (l && l') (r && r') (ps ++ qs) := by
  intro k
  rw [chars_append, lexemes_append]
  exact (h k).append (h' _) hgap

theorem after {s : String} (hs : ∀ c ∈ s.toList, d.Unmarked c) (hne : s.toList ≠ [])
    (h : Scanned d l r ps) : Scanned d true r (.text s :: ps) := by
  intro k
  obtain ⟨hchars, hlexemes⟩ := lexemes_text hs k
  rw [← List.singleton_append, chars_append, lexemes_append, hchars, hlexemes]
  exact .after hs hne (h _)

theorem before {s : String} (h : Scanned d l r ps) (hs : ∀ c ∈ s.toList, d.Unmarked c)
    (hne : s.toList ≠ []) : Scanned d l true (ps ++ [.text s]) := by
  intro k
  obtain ⟨hchars, hlexemes⟩ := lexemes_text hs (k + (parameters ps).length)
  rw [chars_append, lexemes_append, hchars, hlexemes]
  exact (h _).before hs hne

/-- One piece that is read on its own. -/
theorem single {p : Piece} (h : ∀ k, ∃ s ls, texts d k [p] = [s] ∧ d.Scans l r s.toList ls) :
    Scanned d l r [p] := by
  intro k
  obtain ⟨s, ls, hs, hscans⟩ := h k
  obtain ⟨hchars, hlexemes⟩ := lexemes_of_texts hs hscans
  rwa [hchars, hlexemes]

/-- One piece without a mark. -/
theorem bare {p : Piece}
    (h : ∀ k, ∃ s : String, texts d k [p] = [s] ∧ ∀ c ∈ s.toList, d.Unmarked c) :
    Scanned d l r [p] := by
  have hsingle : Scanned d true true [p] := by
    refine single fun k => ?_
    obtain ⟨s, hs, hc⟩ := h k
    exact ⟨s, _, hs, .bare hc⟩
  exact hsingle.weaken (fun _ => rfl) fun _ => rfl

end Scanned

end Piece

namespace Layout

variable {d : Dialect} {s : String}

theorem unmarked_of_isWordChar {c : Char} (h : isWordChar c = true) : d.Unmarked c := by
  apply d.unmarked_of_not_mem
  have hmarks : ∀ c ∈ Dialect.anyMarks, isWordChar c = false := by decide
  exact fun hc => absurd (hmarks c hc) (by simp [h])

theorem isWord_iff : isWord s = true ↔ s.toList ≠ [] ∧ ∀ c ∈ s.toList, isWordChar c = true := by
  simp [isWord]

theorem exists_of_isOpening (h : isOpening s = true) :
    ∃ cs, s.toList = cs ++ ['('] ∧ ∀ c ∈ cs, isWordChar c = true := by
  obtain ⟨hlast, hall⟩ := Bool.and_eq_true_iff.mp h
  obtain ⟨cs, hcs⟩ := List.getLast?_eq_some_iff.mp (eq_of_beq hlast)
  rw [hcs, List.dropLast_concat] at hall
  exact ⟨cs, hcs, List.all_eq_true.mp hall⟩

theorem unmarked_of_isWord (h : isWord s = true) : ∀ c ∈ s.toList, d.Unmarked c :=
  fun c hc => unmarked_of_isWordChar ((isWord_iff.mp h).2 c hc)

theorem unmarked_of_isOpening (h : isOpening s = true) : ∀ c ∈ s.toList, d.Unmarked c := by
  obtain ⟨cs, hcs, hall⟩ := exists_of_isOpening h
  rw [hcs]
  refine List.forall_mem_append.mpr ⟨fun c hc => unmarked_of_isWordChar (hall c hc), ?_⟩
  exact List.forall_mem_singleton.mpr (d.unmarked_of_not_mem (by decide))

theorem unmarked_symbol (o : Operator) : ∀ c ∈ o.symbol.toList, d.Unmarked c := by
  intro c hc
  apply d.unmarked_of_not_mem
  have hmarks : ∀ c ∈ o.symbol.toList, c ∉ Dialect.anyMarks := by cases o <;> decide
  exact hmarks c hc

theorem unmarked_placeholder (n : Nat) : ∀ c ∈ (d.placeholder n).toList, d.Unmarked c := by
  intro c hc
  apply d.unmarked_of_not_mem
  have hmarks : ∀ c ∈ Dialect.anyMarks, ¬ (c.isDigit = true ∨ c ∈ ['$', '@', ':', '?']) := by decide
  exact fun hm => hmarks c hm (d.mem_placeholder hc)

theorem unmarked_empty : ∀ c ∈ "".toList, d.Unmarked c := by simp

theorem unmarked_closing : ∀ c ∈ ")".toList, d.Unmarked c :=
  List.forall_mem_singleton.mpr (d.unmarked_of_not_mem (by decide))

theorem unmarked_asterisk : ∀ c ∈ "*".toList, d.Unmarked c :=
  List.forall_mem_singleton.mpr (d.unmarked_of_not_mem (by decide))

theorem unmarked_hyphen : ∀ c ∈ "-".toList, d.Unmarked c :=
  List.forall_mem_singleton.mpr (d.unmarked_of_not_mem (by decide))

namespace Phrase

variable {V : String → Prop} {P : List Piece → Prop} {l r : Bool} {ps : List Piece}
  (hV : ∀ s, V s → ∀ c ∈ s.toList, d.Unmarked c)
include hV

/-- The texts of a phrase are without marks. -/
theorem unmarked (hP : ∀ ps, P ps → ∀ p ∈ ps, p.Unmarked d) (h : Phrase V P l r ps) :
    ∀ p ∈ ps, p.Unmarked d := by
  induction h with
  | nil => exact List.forall_mem_nil _
  | blank _ ih => exact List.forall_mem_cons.mpr ⟨unmarked_empty, ih⟩
  | refused f _ ih => exact List.forall_mem_cons.mpr ⟨trivial, ih⟩
  | name s => exact List.forall_mem_singleton.mpr trivial
  | parameter v => exact List.forall_mem_singleton.mpr trivial
  | literal v => exact List.forall_mem_singleton.mpr trivial
  | verbatim hs => exact List.forall_mem_singleton.mpr (hV _ hs)
  | symbol o => exact List.forall_mem_singleton.mpr (unmarked_symbol o)
  | everything => exact List.forall_mem_singleton.mpr unmarked_asterisk
  | part h => exact hP _ h
  | after _ hs ih => exact List.forall_mem_cons.mpr ⟨unmarked_of_isWord hs, ih⟩
  | before _ hs ih =>
    exact List.forall_mem_append.mpr ⟨ih, List.forall_mem_singleton.mpr (unmarked_of_isWord hs)⟩
  | group _ hs ih =>
    refine List.forall_mem_cons.mpr ⟨unmarked_of_isOpening hs, List.forall_mem_append.mpr ⟨ih, ?_⟩⟩
    exact List.forall_mem_singleton.mpr unmarked_closing
  | append _ _ _ ih ih' => exact List.forall_mem_append.mpr ⟨ih, ih'⟩
  | weaken _ _ _ ih => exact ih

/-- The flags of a phrase allow what the marks at its ends need. -/
theorem scanned (hP : ∀ ps, P ps → Piece.Scanned d false false ps) (h : Phrase V P l r ps) :
    Piece.Scanned d l r ps := by
  induction h with
  | nil => exact .nil
  | blank _ ih =>
    have hblank : Piece.Scanned d true true [.text ""] := .bare fun k => ⟨_, rfl, unmarked_empty⟩
    exact hblank.append ih rfl
  | refused f _ ih => exact ih
  | name s => exact .single fun k => ⟨_, _, rfl, d.scans_quote s⟩
  | parameter v => exact .bare fun k => ⟨_, rfl, unmarked_placeholder _⟩
  | literal v =>
    obtain hnumeral | ⟨text, hscans⟩ := d.literal_cases v
    · exact .bare fun k => ⟨_, rfl, hnumeral.unmarked d⟩
    · exact .single fun k => ⟨_, _, rfl, hscans⟩
  | verbatim hs => exact .bare fun k => ⟨_, rfl, hV _ hs⟩
  | symbol o => exact .bare fun k => ⟨_, rfl, unmarked_symbol o⟩
  | everything => exact .bare fun k => ⟨_, rfl, unmarked_asterisk⟩
  | part h => exact hP _ h
  | after _ hs ih => exact .after (unmarked_of_isWord hs) (isWord_iff.mp hs).1 ih
  | before _ hs ih => exact .before ih (unmarked_of_isWord hs) (isWord_iff.mp hs).1
  | group _ hs ih =>
    obtain ⟨cs, hcs, -⟩ := exists_of_isOpening hs
    exact .after (unmarked_of_isOpening hs) (by simp [hcs]) (ih.before unmarked_closing (by simp))
  | append _ _ hgap ih ih' => exact ih.append ih' hgap
  | weaken hl hr _ ih => exact ih.weaken hl hr

end Phrase

end Layout

namespace Piece

def name? : Piece → Option String
  | .name s => some s
  | _ => none

def isQuotedLiteral : Piece → Bool
  | .literal v => v.isQuoted
  | _ => false

/-- A piece is read as characters outside quotes, or it is a name or a text and read as one. -/
theorem read_cases {d : Dialect} {p : Piece} (h : p.Unmarked d) (k : Nat) :
    (lexemes d k [p] = (chars d k [p]).map .bare ∧ p.name? = none ∧ p.isQuotedLiteral = false) ∨
      ∃ m t, d.Scans false false (chars d k [p]) [.quoted m t] ∧
        lexemes d k [p] = [.quoted m t] ∧ p.name? = (Lexeme.quoted m t).name? ∧
        p.isQuotedLiteral = (Lexeme.quoted m t).isString := by
  have hbare : ∀ s : String, texts d k [p] = [s] → (∀ c ∈ s.toList, d.Unmarked c) →
      lexemes d k [p] = (chars d k [p]).map .bare := by
    intro s hs hc
    obtain ⟨hchars, hlexemes⟩ := lexemes_of_texts hs (.bare hc)
    rw [hlexemes, hchars]
  cases p with
  | text s => exact .inl ⟨hbare _ rfl h, rfl, rfl⟩
  | verbatim s => exact .inl ⟨hbare _ rfl h, rfl, rfl⟩
  | name s =>
    have hread : chars d k [.name s] = _ ∧ lexemes d k [.name s] = _ :=
      lexemes_of_texts rfl (d.scans_quote s)
    obtain ⟨hchars, hlexemes⟩ := hread
    exact .inr ⟨.name, s, hchars ▸ d.scans_quote s, hlexemes, rfl, rfl⟩
  | parameter v => exact .inl ⟨hbare _ rfl (Layout.unmarked_placeholder _), rfl, rfl⟩
  | literal v =>
    cases hv : v.isQuoted with
    | false => exact .inl ⟨hbare _ rfl ((d.numeral_literal hv).unmarked d), rfl, hv⟩
    | true =>
      obtain ⟨text, hscans⟩ := d.exists_scans_literal hv
      have hread : chars d k [.literal v] = _ ∧ lexemes d k [.literal v] = _ :=
        lexemes_of_texts rfl hscans
      obtain ⟨hchars, hlexemes⟩ := hread
      exact .inr ⟨.string, text, hchars ▸ hscans, hlexemes, rfl, hv⟩
  | refused f => exact .inl ⟨rfl, rfl, rfl⟩

end Piece

namespace Node

variable {d : Dialect} {V : String → Prop} (hV : ∀ s, V s → ∀ c ∈ s.toList, d.Unmarked c) {n : Node}
  (hn : n.Every (Shape.Settled V))
include hV hn

theorem unmarked_piecesIn (parent : Option Kind) : ∀ p ∈ n.piecesIn d parent, p.Unmarked d := by
  refine piecesInduction (Q := fun ps => ∀ p ∈ ps, p.Unmarked d) d ?_ ?_ hn parent
  · exact fun ps h => h.unmarked hV fun _ h => h
  · exact fun x hx => List.forall_mem_cons.mpr ⟨Layout.unmarked_hyphen, hx⟩

theorem scanned_piecesIn (parent : Option Kind) :
    Piece.Scanned d false false (n.piecesIn d parent) := by
  refine piecesInduction (Q := Piece.Scanned d false false) d ?_ ?_ hn parent
  · exact fun ps h => h.scanned hV fun _ h => h
  · exact fun x hx => (hx.after Layout.unmarked_hyphen (by simp)).weaken nofun id

/-- The lexemes of a statement are those of its pieces. -/
theorem lexemes?_sql : d.lexemes? (Piece.sql d (n.pieces d)) =
    some (Piece.lexemes d 0 (n.pieces d)) := by
  have hscanned := scanned_piecesIn hV hn none 0
  rw [← Piece.toList_sql] at hscanned
  exact hscanned.lexemes?

end Node

end SqlTree
