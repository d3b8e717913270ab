import SqlTree.Proofs.Render.Scanning

/-!
# Quotes hold what they enclose

No name and no literal gets out of its quotes: a statement is read to its end outside quotes, its
quoted names are the names that were written, as many texts are read as were written, and its
parentheses are in pairs (`Node.legible_of_harmless`).
-/

namespace SqlTree

namespace Lexeme

/-- How many parentheses are open after a lexeme; none is closed that was not open. -/
def opens? (k : Nat) : Lexeme → Option Nat
  | .bare c =>
    if c = '(' then some (k + 1)
    else if c = ')' then if k = 0 then none else some (k - 1)
    else some k
  | .quoted .. => some k

/-- How many parentheses are open after the lexemes. -/
def depth? (k : Nat) (ls : List Lexeme) : Option Nat := ls.foldlM opens? k

theorem opens?_add {j k : Nat} {x : Lexeme} (h : opens? k x = some j) (i : Nat) :
    opens? (k + i) x = some (j + i) := by
  cases x with
  | quoted m s => simpa [opens?] using h
  | bare c =>
    unfold opens? at h ⊢
    grind

/-- Parentheses that were open stay open. -/
theorem depth?_add {j k : Nat} {ls : List Lexeme} (h : depth? k ls = some j) (i : Nat) :
    depth? (k + i) ls = some (j + i) := by
  induction ls generalizing k with
  | nil =>
    obtain rfl := Option.some.inj h
    rfl
  | cons x ls ih =>
    rw [depth?, List.foldlM_cons] at h ⊢
    obtain ⟨k', hx, hls⟩ := Option.bind_eq_some_iff.mp h
    rw [opens?_add hx i]
    exact ih hls

/-- Lexemes whose parentheses are in pairs. -/
def Balanced (ls : List Lexeme) : Prop := ∀ k, depth? k ls = some k

namespace Balanced

variable {ls ms : List Lexeme}

theorem nil : Balanced [] := fun _ => rfl

theorem append (h : Balanced ls) (h' : Balanced ms) : Balanced (ls ++ ms) := by
  intro k
  rw [depth?, List.foldlM_append, ← depth?, h k]
  exact h' k

theorem enclosed (h : Balanced ls) : Balanced ([.bare '('] ++ ls ++ [.bare ')']) := by
  intro k
  rw [depth?, List.foldlM_append, List.foldlM_append]
  show (depth? (k + 1) ls).bind (depth? · [.bare ')']) = some k
  rw [h (k + 1)]
  rfl

theorem quoted (m : Mark) (s : String) : Balanced [.quoted m s] := fun _ => rfl

theorem ofDepth (h : depth? 0 ls = some 0) : Balanced ls := by
  intro k
  simpa using depth?_add h k

theorem bare {cs : List Char} (h : ∀ c ∈ cs, c ≠ '(' ∧ c ≠ ')') : Balanced (cs.map .bare) := by
  induction cs with
  | nil => exact nil
  | cons c cs ih =>
    obtain ⟨hc, hcs⟩ := List.forall_mem_cons.mp h
    have hone : Balanced [.bare c] := fun k => by simp [depth?, opens?, hc.1, hc.2]
    exact hone.append (ih hcs)

end Balanced

end Lexeme

namespace Piece

variable {d : Dialect} {ps qs : List Piece}

theorem lexemes_single {p : Piece} (h : p.Unmarked d) (k : Nat) :
    (lexemes d k [p]).filterMap Lexeme.name? = [p].filterMap name? ∧
      (lexemes d k [p]).countP Lexeme.isString = [p].countP isQuotedLiteral := by
  obtain ⟨hread, hname, hliteral⟩ | ⟨m, t, -, hread, hname, hliteral⟩ := read_cases h k
  · rw [hread]
    simp [List.filterMap_map, List.countP_map, Function.comp_def, Lexeme.name?, Lexeme.isString,
      hname, hliteral]
  · simp [hread, hname, hliteral, List.filterMap_cons, List.countP_cons]

/-- The quoted names are those that were written, in their order. -/
theorem names_lexemes (h : ∀ p ∈ ps, p.Unmarked d) (k : Nat) :
    (lexemes d k ps).filterMap Lexeme.name? = ps.filterMap name? := by
  induction ps generalizing k with
  | nil => rfl
  | cons p ps ih =>
    obtain ⟨hp, hps⟩ := List.forall_mem_cons.mp h
    rw [lexemes_cons, List.filterMap_append, (lexemes_single hp k).1, ih hps,
      ← List.filterMap_append, List.singleton_append]

/-- As many texts are read as were written. -/
theorem strings_lexemes (h : ∀ p ∈ ps, p.Unmarked d) (k : Nat) :
    (lexemes d k ps).countP Lexeme.isString = ps.countP isQuotedLiteral := by
  induction ps generalizing k with
  | nil => rfl
  | cons p ps ih =>
    obtain ⟨hp, hps⟩ := List.forall_mem_cons.mp h
    rw [lexemes_cons, List.countP_append, (lexemes_single hp k).2, ih hps,
      ← List.countP_append, List.singleton_append]

/-- Pieces whose parentheses are in pairs. -/
def Balanced (d : Dialect) (ps : List Piece) : Prop := ∀ k, Lexeme.Balanced (lexemes d k ps)

namespace Balanced

theorem nil : Balanced d [] := fun _ => .nil

theorem append (h : Balanced d ps) (h' : Balanced d qs) : Balanced d (ps ++ qs) := by
  intro k
  rw [lexemes_append]
  exact (h k).append (h' _)

theorem cons {p : Piece} (h : Balanced d [p]) (h' : Balanced d ps) : Balanced d (p :: ps) :=
  h.append h'

theorem bare {p : Piece} (h : ∀ k, ∃ s : String, texts d k [p] = [s] ∧
    ∀ c ∈ s.toList, d.Unmarked c ∧ c ≠ '(' ∧ c ≠ ')') : Balanced d [p] := by
  intro k
  obtain ⟨s, hs, hc⟩ := h k
  rw [(lexemes_of_texts hs (.bare fun c h => (hc c h).1)).2]
  exact .bare fun c h => (hc c h).2

theorem quoted {p : Piece} (h : ∀ k, ∃ s m t, texts d k [p] = [s] ∧
    d.Scans false false s.toList [.quoted m t]) : Balanced d [p] := by
  intro k
  obtain ⟨s, m, t, hs, hscans⟩ := h k
  rw [(lexemes_of_texts hs hscans).2]
  exact .quoted m t

end Balanced

end Piece

namespace Layout

variable {d : Dialect}

/-- Characters that are no parentheses. -/
theorem ne_parens_of {p : Char → Prop} (hp : ∀ c ∈ ['(', ')'], ¬ p c) {c : Char} (hc : p c) :
    c ≠ '(' ∧ c ≠ ')' := by
  constructor
  all_goals
    rintro rfl
    exact hp _ (by decide) hc

theorem ne_parens_of_isWordChar {c : Char} (h : isWordChar c = true) : c ≠ '(' ∧ c ≠ ')' :=
  ne_parens_of (p := fun c => isWordChar c = true) (by decide) h

theorem ne_parens_symbol (o : Operator) : ∀ c ∈ o.symbol.toList, c ≠ '(' ∧ c ≠ ')' := by
  cases o <;> decide

theorem ne_parens_placeholder {n : Nat} {c : Char} (hc : c ∈ (d.placeholder n).toList) :
    c ≠ '(' ∧ c ≠ ')' :=
  ne_parens_of (p := fun c => c.isDigit = true ∨ c ∈ ['$', '@', ':', '?']) (by decide)
    (d.mem_placeholder hc)

theorem ne_parens_numeral {cs : List Char} (h : Numeral cs) {c : Char} (hc : c ∈ cs) :
    c ≠ '(' ∧ c ≠ ')' :=
  ne_parens_of (p := fun c => c.isAlphanum = true ∨ c ∈ ['.', '-']) (by decide) (h.mem hc)

theorem balanced_word {s : String} (hs : isWord s = true) : Piece.Balanced d [.text s] :=
  .bare fun _ => ⟨s, rfl, fun c hc =>
    ⟨unmarked_of_isWord hs c hc, ne_parens_of_isWordChar ((isWord_iff.mp hs).2 c hc)⟩⟩

/-- What stands between an opening word and its closing parenthesis. -/
theorem balanced_group {s : String} {ps : List Piece} (hs : isOpening s = true)
    (h : Piece.Balanced d ps) : Piece.Balanced d (.text s :: ps ++ [.text ")"]) := by
  intro k
  obtain ⟨cs, hcs, hwords⟩ := exists_of_isOpening hs
  rw [List.cons_append, Piece.lexemes_cons, Piece.lexemes_append,
    (Piece.lexemes_text (unmarked_of_isOpening hs) _).2, (Piece.lexemes_text unmarked_closing _).2,
    hcs, List.map_append, List.append_assoc]
  refine (Lexeme.Balanced.bare fun c hc => ne_parens_of_isWordChar (hwords c hc)).append ?_
  simpa using (h _).enclosed

theorem Phrase.balanced {V : String → Prop} {P : List Piece → Prop} {l r : Bool} {ps : List Piece}
    (hV : ∀ s, V s → (∀ c ∈ s.toList, d.Unmarked c) ∧ Lexeme.Balanced (s.toList.map .bare))
    (hP : ∀ ps, P ps → Piece.Balanced d ps) (h : Phrase V P l r ps) : Piece.Balanced d ps := by
  induction h with
  | nil => exact .nil
  | blank _ ih => exact .cons (.bare fun k => ⟨_, rfl, by simp⟩) ih
  | refused f _ ih => exact ih
  | name s => exact .quoted fun k => ⟨_, _, _, rfl, d.scans_quote s⟩
  | parameter v =>
    exact .bare fun k => ⟨_, rfl, fun c hc =>
      ⟨unmarked_placeholder _ c hc, ne_parens_placeholder hc⟩⟩
  | literal v =>
    obtain hnumeral | ⟨text, hscans⟩ := d.literal_cases v
    · exact .bare fun k => ⟨_, rfl, fun c hc =>
        ⟨hnumeral.unmarked d c hc, ne_parens_numeral hnumeral hc⟩⟩
    · exact .quoted fun k => ⟨_, _, _, rfl, hscans⟩
  | verbatim hs =>
    intro k
    rw [(Piece.lexemes_of_texts rfl (.bare (hV _ hs).1)).2]
    exact (hV _ hs).2
  | symbol o =>
    exact .bare fun k => ⟨_, rfl, fun c hc => ⟨unmarked_symbol o c hc, ne_parens_symbol o c hc⟩⟩
  | everything =>
    exact .bare fun k => ⟨_, rfl, fun c hc => ⟨unmarked_asterisk c hc, by simp_all⟩⟩
  | part h => exact hP _ h
  | after _ hs ih => exact (balanced_word hs).cons ih
  | before _ hs ih => exact ih.append (balanced_word hs)
  | group _ hs ih => exact balanced_group hs ih
  | append _ _ _ ih ih' => exact ih.append ih'
  | weaken _ _ _ ih => exact ih

end Layout

/-- Texts without a mark and a backslash whose parentheses are in pairs. -/
def Harmless (s : String) : Prop :=
  (∀ c ∈ s.toList, c ∉ Dialect.anyMarks ∧ c ≠ '\\') ∧
    Lexeme.depth? 0 (s.toList.map .bare) = some 0

instance : DecidablePred Harmless := fun s =>
  inferInstanceAs (Decidable ((∀ c ∈ s.toList, c ∉ Dialect.anyMarks ∧ c ≠ '\\') ∧
    Lexeme.depth? 0 (s.toList.map .bare) = some 0))

/-- A text is read to its end outside quotes, the names in it are those of the pieces, it holds as
many quoted texts, and its parentheses are in pairs. -/
def Piece.Legible (d : Dialect) (ps : List Piece) (sql : String) : Prop :=
  ∃ ls, d.lexemes? sql = some ls ∧ ls.filterMap Lexeme.name? = ps.filterMap name? ∧
    ls.countP Lexeme.isString = ps.countP isQuotedLiteral ∧ Lexeme.depth? 0 ls = some 0

namespace Node

variable {d : Dialect} {n : Node}

theorem balanced_piecesIn (hn : n.Every (Shape.Settled Harmless)) (parent : Option Kind) :
    Piece.Balanced d (n.piecesIn d parent) := by
  have hV : ∀ s, Harmless s → (∀ c ∈ s.toList, d.Unmarked c) ∧
      Lexeme.Balanced (s.toList.map .bare) :=
    fun s hs => ⟨fun c hc => d.unmarked_of_not_mem (hs.1 c hc).1, .ofDepth hs.2⟩
  refine piecesInduction (Q := Piece.Balanced d) d ?_ ?_ hn parent
  · exact fun ps h => h.balanced hV fun _ h => h
  · refine fun x hx => .cons (.bare fun k => ⟨_, rfl, fun c hc => ?_⟩) hx
    exact ⟨Layout.unmarked_hyphen c hc, by simp_all⟩

theorem legible_pieces (hn : n.Every (Shape.Settled Harmless)) :
    Piece.Legible d (n.pieces d) (Piece.sql d (n.pieces d)) := by
  have hV : ∀ s, Harmless s → ∀ c ∈ s.toList, d.Unmarked c :=
    fun s hs c hc => d.unmarked_of_not_mem (hs.1 c hc).1
  have hunmarked := unmarked_piecesIn hV hn none
  exact ⟨_, lexemes?_sql hV hn, Piece.names_lexemes hunmarked 0, Piece.strings_lexemes hunmarked 0,
    balanced_piecesIn hn none 0 0⟩

/-- Whatever the names and values of a tree are, its text is read as it was written. -/
theorem legible_of_harmless (d : Dialect) {n : Node} (hw : n.wellFormed = true)
    (hn : n.Every (Shape.NoRaw Harmless)) :
    (∀ sql values, n.render d = .ok (sql, values) → Piece.Legible d (n.pieces d) sql) ∧
      ∀ c, n.compile d = .ok c → Piece.Legible d (c.query.pieces d) c.sql := by
  constructor
  · intro sql values h
    rw [sql_of_render_eq_ok h]
    exact legible_pieces (settled_of_noRaw hw hn)
  · intro c h
    rw [eq_of_compile_eq_ok hw h]
    exact legible_pieces (settled_rewrite_adapt (by decide) d hw hn)

/-- A name with both brackets, a text with a backslash before a quote, and a limit. -/
theorem legible_select_brackets :
    let n : Node := ⟨.selectQuery {
      selections := [⟨.selection ⟨.aliased ⟨.function "max" [⟨.value (.string "\\'") true⟩]⟩
        ⟨.identifier "a]["⟩⟩⟩]
      limit := some ⟨.limit ⟨.value (.int 1) true⟩⟩ }⟩
    n.wellFormed = true ∧ n.Every (Shape.NoRaw Harmless) ∧
      ∃ sql c, n.render .mssql = .ok (sql, []) ∧ n.compile .mssql = .ok c ∧
        Piece.Legible .mssql (n.pieces .mssql) sql ∧
        Piece.Legible .mssql (c.query.pieces .mssql) c.sql := by
  intro n
  have hw : n.wellFormed = true := by decide
  have hn : n.Every (Shape.NoRaw Harmless) := by decide
  obtain ⟨hrender, hcompile⟩ := legible_of_harmless .mssql hw hn
  have hok : n.render .mssql = .ok (_, _) := render_of_no_refusal rfl
  exact ⟨hw, hn, _, _, hok, compile_of_no_refusal hw rfl, hrender _ _ hok,
    hcompile _ (compile_of_no_refusal hw rfl)⟩

end Node

end SqlTree
