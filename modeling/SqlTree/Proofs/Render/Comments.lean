import SqlTree.Proofs.Render.Scanning

/-!
# Comments

Outside quotes a statement opens no comment, but for one that two hyphens open: the sign of a
negation stands directly before what it negates, and this may start with a hyphen of its own
(`Node.opensComment_iff`).
-/

namespace SqlTree

/-- The characters that open comments. -/
def commentChars : List Char := ['-', '/', '*']

/-- Texts of which no two characters open a comment. -/
def Tame (cs : List Char) : Prop := cs.count '-' ≤ 1 ∧ ('/' ∉ cs ∨ '*' ∉ cs)

instance : DecidablePred Tame := fun cs =>
  inferInstanceAs (Decidable (cs.count '-' ≤ 1 ∧ ('/' ∉ cs ∨ '*' ∉ cs)))

theorem tame_of_not_mem {cs : List Char} (h : ∀ c ∈ cs, c ∉ commentChars) : Tame cs := by
  have hhyphen : '-' ∉ cs := fun hc => h _ hc (by decide)
  refine ⟨?_, .inl fun hc => h _ hc (by decide)⟩
  rw [List.count_eq_zero_of_not_mem hhyphen]
  decide

theorem tame_symbol (o : Operator) : Tame o.symbol.toList := by
  cases o <;> decide

theorem tame_numeral {cs : List Char} (h : Numeral cs) : Tame cs := by
  constructor
  · obtain ⟨ds, hcs, hds⟩ := h
    have hhyphen : '-' ∉ ds := fun hc => absurd (hds _ hc) (by decide)
    have hcount := List.count_eq_zero_of_not_mem hhyphen
    obtain rfl | rfl := hcs <;> simp [hcount]
  · exact .inl fun hc => absurd (h.mem hc) (by decide)

theorem tame_placeholder {d : Dialect} {n : Nat} : Tame (d.placeholder n).toList := by
  refine tame_of_not_mem fun c hc hm => ?_
  have hnone : ∀ c ∈ commentChars, ¬ (c.isDigit = true ∨ c ∈ ['$', '@', ':', '?']) := by decide
  exact hnone c hm (d.mem_placeholder hc)

namespace Lexeme

variable {l r l' r' : Bool} {xs ys : List Lexeme} {a b : Char}

/-- Lexemes that may stand beside others.  The flags tell whether they end no pair that opens a
comment, and whether they start none. -/
structure Apart (l r : Bool) (xs : List Lexeme) : Prop where
  first : l = true → xs.head? ≠ some (.bare '-') ∧ xs.head? ≠ some (.bare '*')
  last : r = true → xs.getLast? ≠ some (.bare '-') ∧ xs.getLast? ≠ some (.bare '/')

namespace Apart

theorem loose : Apart false false xs := ⟨nofun, nofun⟩

theorem nil : Apart l r [] := ⟨fun _ => ⟨nofun, nofun⟩, fun _ => ⟨nofun, nofun⟩⟩

theorem weaken (h : Apart l r xs) (hl : l' = true → l = true) (hr : r' = true → r = true) :
    Apart l' r' xs := ⟨fun h' => h.first (hl h'), fun h' => h.last (hr h')⟩

theorem append (h : Apart l r xs) (h' : Apart l' r' ys) : Apart (l && l') (r && r') (xs ++ ys) := by
  constructor
  · intro hl
    obtain ⟨hl, hl'⟩ := Bool.and_eq_true_iff.mp hl
    rw [List.head?_append]
    cases hx : xs.head? with
    | none => exact h'.first hl'
    | some x => simpa [hx] using h.first hl
  · intro hr
    obtain ⟨hr, hr'⟩ := Bool.and_eq_true_iff.mp hr
    rw [List.getLast?_append]
    cases hy : ys.getLast? with
    | none => simpa using h.last hr
    | some y => simpa [hy] using h'.last hr'

/-- What stands first tells how the whole starts. -/
theorem after (hne : xs ≠ []) (h : Apart true true xs) (h' : Apart l r ys) :
    Apart true r (xs ++ ys) := by
  refine ⟨fun _ => ?_, fun hr => ?_⟩
  · obtain ⟨x, xs, rfl⟩ := List.exists_cons_of_ne_nil hne
    exact h.first rfl
  · have hxs : Apart false true xs := h.weaken nofun id
    have hys : Apart false r ys := h'.weaken nofun id
    exact (hxs.append hys).last (by simp [hr])

theorem before (hne : ys ≠ []) (h : Apart l r xs) (h' : Apart true true ys) :
    Apart l true (xs ++ ys) := by
  refine ⟨fun hl => ?_, fun _ => ?_⟩
  · have hxs : Apart l false xs := h.weaken id nofun
    have hys : Apart true false ys := h'.weaken id nofun
    exact (hxs.append hys).first (by simp [hl])
  · rw [List.getLast?_append, List.getLast?_eq_some_getLast hne, Option.some_or,
      ← List.getLast?_eq_some_getLast hne]
    exact h'.last rfl

theorem bare {cs : List Char} (h : ∀ c ∈ cs, c ∉ commentChars) :
    Apart true true (cs.map .bare) := by
  have hmem : ∀ c ∈ commentChars, Lexeme.bare c ∉ cs.map Lexeme.bare := by
    intro c hc hm
    obtain ⟨c', hc', he⟩ := List.mem_map.mp hm
    cases he
    exact h c hc' hc
  constructor
  · intro _
    exact ⟨fun hh => hmem '-' (by decide) (List.mem_of_head? hh),
      fun hh => hmem '*' (by decide) (List.mem_of_head? hh)⟩
  · intro _
    exact ⟨fun hh => hmem '-' (by decide) (List.mem_of_getLast? hh),
      fun hh => hmem '/' (by decide) (List.mem_of_getLast? hh)⟩

end Apart

/-- Two characters side by side stand in one of two parts, or one in each. -/
theorem pair_infix_append (h : [.bare a, .bare b] <:+: xs ++ ys) :
    [.bare a, .bare b] <:+: xs ∨ [.bare a, .bare b] <:+: ys ∨
      xs.getLast? = some (.bare a) ∧ ys.head? = some (.bare b) := by
  obtain h | h | ⟨us, vs, huv, hus, hvs⟩ := List.infix_append_iff.mp h
  · exact .inl h
  · exact .inr (.inl h)
  · rcases us with _ | ⟨u, _ | ⟨u', us⟩⟩
    · obtain rfl : vs = [.bare a, .bare b] := huv.symm
      exact .inr (.inl hvs.isInfix)
    · obtain ⟨rfl, rfl⟩ : u = .bare a ∧ vs = [.bare b] := by simpa [eq_comm] using huv
      obtain ⟨ws, rfl⟩ := hus
      obtain ⟨zs, rfl⟩ := hvs
      exact .inr (.inr (by simp))
    · obtain ⟨rfl, rfl, rfl, rfl⟩ : u = .bare a ∧ u' = .bare b ∧ us = [] ∧ vs = [] := by
        simpa [eq_comm] using huv
      exact .inl hus.isInfix

theorem not_pair_infix_bare {cs : List Char} (h : Tame cs) :
    ¬ [.bare '-', .bare '-'] <:+: cs.map Lexeme.bare ∧
      ¬ [.bare '/', .bare '*'] <:+: cs.map Lexeme.bare := by
  obtain ⟨hhyphen, hslash⟩ := h
  constructor
  · intro h
    have hcount := h.sublist.count_le (.bare '-')
    have hmap : (cs.map Lexeme.bare).count (.bare '-') = cs.count '-' := by
      rw [List.count, List.countP_map, List.count]
      exact List.countP_congr fun c _ => by simp
    rw [hmap] at hcount
    exact absurd (Nat.le_trans hcount hhyphen) (by decide)
  · intro h
    have hsub := h.subset
    have hmem : '/' ∈ cs ∧ '*' ∈ cs := by simpa using hsub
    exact hslash.elim (· hmem.1) (· hmem.2)

end Lexeme

namespace Piece

variable {d : Dialect} {ps qs : List Piece}

/-- A negation is written whose operand starts with a hyphen. -/
def SignBeforeHyphen (d : Dialect) (ps : List Piece) : Prop :=
  ∃ x : Node, Node.piecesIn d ⟨.unaryOperation ⟨.operator .negate⟩ x⟩ none <:+: ps ∧
    (sql d (x.piecesIn d (some .unaryOperation))).toList.head? = some '-'

theorem SignBeforeHyphen.mono (h : SignBeforeHyphen d ps) (hps : ps <:+: qs) :
    SignBeforeHyphen d qs := by
  obtain ⟨x, hx, hhead⟩ := h
  exact ⟨x, hx.trans hps, hhead⟩

/-- Pieces that open no comment but with the sign of a negation. -/
structure Uncommented (d : Dialect) (ps : List Piece) : Prop where
  asterisk : ∀ k, ¬ [.bare '/', .bare '*'] <:+: lexemes d k ps
  hyphens : ∀ k, [.bare '-', .bare '-'] <:+: lexemes d k ps → SignBeforeHyphen d ps

namespace Uncommented

theorem of_lexemes (h : ∀ k, ¬ [.bare '-', .bare '-'] <:+: lexemes d k ps ∧
    ¬ [.bare '/', .bare '*'] <:+: lexemes d k ps) : Uncommented d ps :=
  ⟨fun k => (h k).2, fun k hk => absurd hk (h k).1⟩

/-- A piece that is read as nothing changes nothing. -/
theorem skip {p : Piece} (hp : ∀ k, texts d k (p :: ps) = "" :: texts d k ps ∨
    texts d k (p :: ps) = texts d k ps) (h : Uncommented d ps) : Uncommented d (p :: ps) := by
  have hlexemes : ∀ k, lexemes d k (p :: ps) = lexemes d k ps := by
    intro k
    obtain hp | hp := hp k
    · rw [lexemes, hp]
      rfl
    · rw [lexemes, hp]
      rfl
  constructor
  · intro k hk
    exact h.asterisk k (hlexemes k ▸ hk)
  · intro k hk
    exact (h.hyphens k (hlexemes k ▸ hk)).mono (List.suffix_cons p ps).isInfix

theorem append {l r l' r' : Bool} (h : Uncommented d ps) (h' : Uncommented d qs)
    (hl : ∀ k, Lexeme.Apart l r (lexemes d k ps)) (hr : ∀ k, Lexeme.Apart l' r' (lexemes d k qs))
    (hgap : (r || l') = true) : Uncommented d (ps ++ qs) := by
  constructor
  · intro k hk
    rw [lexemes_append] at hk
    obtain hk | hk | ⟨hlast, hhead⟩ := Lexeme.pair_infix_append hk
    · exact h.asterisk _ hk
    · exact h'.asterisk _ hk
    · obtain hr' | hl' := Bool.or_eq_true_iff.mp hgap
      · exact ((hl k).last hr').2 hlast
      · exact ((hr _).first hl').2 hhead
  · intro k hk
    rw [lexemes_append] at hk
    obtain hk | hk | ⟨hlast, hhead⟩ := Lexeme.pair_infix_append hk
    · exact (h.hyphens _ hk).mono (List.prefix_append ps qs).isInfix
    · exact (h'.hyphens _ hk).mono (List.suffix_append ps qs).isInfix
    · obtain hr' | hl' := Bool.or_eq_true_iff.mp hgap
      · exact absurd hlast ((hl k).last hr').1
      · exact absurd hhead ((hr _).first hl').1

/-- A piece that is read as characters outside quotes. -/
theorem bare {p : Piece} (h : ∀ k, ∃ s : String, texts d k [p] = [s] ∧
    (∀ c ∈ s.toList, d.Unmarked c) ∧ Tame s.toList) : Uncommented d [p] := by
  refine of_lexemes fun k => ?_
  obtain ⟨s, hs, hc, htame⟩ := h k
  rw [(lexemes_of_texts hs (.bare hc)).2]
  exact Lexeme.not_pair_infix_bare htame

theorem quoted {p : Piece} (h : ∀ k, ∃ s m t, texts d k [p] = [s] ∧
    d.Scans false false s.toList [.quoted m t]) : Uncommented d [p] := by
  refine of_lexemes fun k => ?_
  obtain ⟨s, m, t, hs, hscans⟩ := h k
  rw [(lexemes_of_texts hs hscans).2]
  exact ⟨fun h => by simpa using h.length_le, fun h => by simpa using h.length_le⟩

end Uncommented

end Piece

/-- Texts that keep apart what stands before and after them. -/
structure Quiet (d : Dialect) (s : String) : Prop where
  ne_nil : s.toList ≠ []
  unmarked : ∀ c ∈ s.toList, d.Unmarked c
  notComment : ∀ c ∈ s.toList, c ∉ commentChars

namespace Quiet

variable {d : Dialect} {s : String}

theorem word (hs : Layout.isWord s = true) : Quiet d s := by
  obtain ⟨hne, hwords⟩ := Layout.isWord_iff.mp hs
  have hnone : ∀ c ∈ commentChars, Layout.isWordChar c = false := by decide
  exact ⟨hne, Layout.unmarked_of_isWord hs,
    fun c hc hm => absurd (hwords c hc) (by simp [hnone c hm])⟩

theorem opening (hs : Layout.isOpening s = true) : Quiet d s := by
  obtain ⟨cs, hcs, hwords⟩ := Layout.exists_of_isOpening hs
  have hnone : ∀ c ∈ commentChars, Layout.isWordChar c = false := by decide
  refine ⟨by simp [hcs], Layout.unmarked_of_isOpening hs, ?_⟩
  rw [hcs]
  refine List.forall_mem_append.mpr ⟨fun c hc hm => ?_, by decide⟩
  exact absurd (hwords c hc) (by simp [hnone c hm])

theorem closing : Quiet d ")" := ⟨by decide, Layout.unmarked_closing, by decide⟩

theorem lexemes_ne_nil (h : Quiet d s) (k : Nat) : Piece.lexemes d k [.text s] ≠ [] := by
  rw [(Piece.lexemes_text h.unmarked k).2]
  simpa using h.ne_nil

theorem apart (h : Quiet d s) (k : Nat) :
    Lexeme.Apart true true (Piece.lexemes d k [.text s]) := by
  rw [(Piece.lexemes_text h.unmarked k).2]
  exact .bare h.notComment

theorem uncommented (h : Quiet d s) : Piece.Uncommented d [.text s] :=
  .bare fun _ => ⟨s, rfl, h.unmarked, tame_of_not_mem h.notComment⟩

end Quiet

namespace Layout.Phrase

variable {d : Dialect} {V : String → Prop} {P : List Piece → Prop} {l r : Bool} {ps : List Piece}

theorem apart_before {s : String} (h : ∀ k, Lexeme.Apart l r (Piece.lexemes d k ps))
    (hs : Quiet d s) (k : Nat) : Lexeme.Apart l true (Piece.lexemes d k (ps ++ [.text s])) := by
  rw [Piece.lexemes_append]
  exact .before (hs.lexemes_ne_nil _) (h _) (hs.apart _)

theorem apart_after {s : String} (h : ∀ k, Lexeme.Apart l r (Piece.lexemes d k ps))
    (hs : Quiet d s) (k : Nat) : Lexeme.Apart true r (Piece.lexemes d k (.text s :: ps)) := by
  rw [Piece.lexemes_cons]
  exact .after (hs.lexemes_ne_nil _) (hs.apart _) (h _)

/-- The flags of a phrase allow what comments need at its ends. -/
theorem apart (h : Phrase V P l r ps) (k : Nat) : Lexeme.Apart l r (Piece.lexemes d k ps) := by
  induction h generalizing k with
  | nil => exact .nil
  | blank _ ih => exact ih k
  | refused f _ ih => exact ih k
  | after _ hs ih => exact apart_after ih (.word hs) k
  | before _ hs ih => exact apart_before ih (.word hs) k
  | group _ hs ih => exact apart_after (apart_before ih .closing) (.opening hs) k
  | append _ _ _ ih ih' =>
    rw [Piece.lexemes_append]
    exact (ih _).append (ih' _)
  | weaken hl hr _ ih => exact (ih k).weaken hl hr
  | _ => exact .loose

theorem uncommented_before {s : String} (h : Piece.Uncommented d ps) (hs : Quiet d s) :
    Piece.Uncommented d (ps ++ [.text s]) :=
  h.append hs.uncommented (fun _ => .loose) hs.apart rfl

theorem uncommented_after {s : String} (h : Piece.Uncommented d ps) (hs : Quiet d s) :
    Piece.Uncommented d (.text s :: ps) :=
  hs.uncommented.append h hs.apart (fun _ => .loose) rfl

/-- In a phrase only its parts can open a comment. -/
theorem uncommented (hV : ∀ s, V s → ∀ c ∈ s.toList, d.Unmarked c ∧ c ∉ commentChars)
    (hP : ∀ ps, P ps → Piece.Uncommented d ps) (h : Phrase V P l r ps) :
    Piece.Uncommented d ps := by
  induction h with
  | nil => exact .of_lexemes fun _ => Lexeme.not_pair_infix_bare (show Tame [] by decide)
  | blank _ ih => exact ih.skip fun _ => .inl rfl
  | refused f _ ih => exact ih.skip fun _ => .inr rfl
  | name s => exact .quoted fun k => ⟨_, _, _, rfl, d.scans_quote s⟩
  | parameter v => exact .bare fun k => ⟨_, rfl, unmarked_placeholder _, tame_placeholder⟩
  | literal v =>
    obtain hnumeral | ⟨text, hscans⟩ := d.literal_cases v
    · exact .bare fun k => ⟨_, rfl, hnumeral.unmarked d, tame_numeral hnumeral⟩
    · exact .quoted fun k => ⟨_, _, _, rfl, hscans⟩
  | verbatim hs =>
    exact .bare fun k => ⟨_, rfl, fun c hc => (hV _ hs c hc).1,
      tame_of_not_mem fun c hc => (hV _ hs c hc).2⟩
  | symbol o => exact .bare fun k => ⟨_, rfl, unmarked_symbol o, tame_symbol o⟩
  | everything => exact .bare fun k => ⟨_, rfl, unmarked_asterisk, by decide⟩
  | part h => exact hP _ h
  | after _ hs ih => exact uncommented_after ih (.word hs)
  | before _ hs ih => exact uncommented_before ih (.word hs)
  | group _ hs ih => exact uncommented_after (uncommented_before ih .closing) (.opening hs)
  | append h h' hgap ih ih' => exact ih.append ih' h.apart h'.apart hgap
  | weaken _ _ _ ih => exact ih

end Layout.Phrase

namespace Piece

variable {d : Dialect} {p : Piece} {ps : List Piece}

/-- A quoted token starts with its mark. -/
theorem head?_quoted {cs : List Char} {m : Mark} {t : String}
    (h : d.Scans false false cs [.quoted m t]) : cs ≠ [] ∧ cs.head? ≠ some '-' := by
  obtain ⟨pending, hpending, hout, -⟩ := h .bare [] rfl (.inr rfl)
  cases cs with
  | nil =>
    obtain rfl := Option.some.inj hpending
    cases hout
  | cons c cs =>
    refine ⟨nofun, fun hc => ?_⟩
    obtain rfl : c = '-' := Option.some.inj hc
    have hopened : d.opened? '-' = none := (d.unmarked_of_not_mem (by decide)).1
    simp [Dialect.run, Dialect.step, Dialect.start, hopened] at hout

theorem head?_placeholder (d : Dialect) (n : Nat) :
    (d.placeholder n).toList ≠ [] ∧ (d.placeholder n).toList.head? ≠ some '-' := by
  constructor
  · cases d <;> simp [Dialect.placeholder]
  · intro h
    exact absurd (d.mem_placeholder (List.mem_of_head? h)) (by decide)

/-- Whether a piece starts with a hyphen does not depend on how its parameter is numbered. -/
theorem head?_chars_single (p : Piece) (j k : Nat) :
    (chars d j [p] = [] ↔ chars d k [p] = []) ∧
      ((chars d j [p]).head? = some '-' ↔ (chars d k [p]).head? = some '-') := by
  cases p with
  | parameter v =>
    have hchars : ∀ k, chars d k [.parameter v] = (d.placeholder (k + 1)).toList := fun k => by
      simp [chars, texts]
    have hhead := fun k => head?_placeholder d (k + 1)
    simp [hchars, (hhead j).1, (hhead j).2, (hhead k).1, (hhead k).2]
  | _ => exact ⟨.rfl, .rfl⟩

theorem head?_lexemes_single (h : p.Unmarked d) (j k : Nat) :
    (lexemes d j [p] = [] ↔ chars d k [p] = []) ∧
      ((lexemes d j [p]).head? = some (.bare '-') ↔ (chars d k [p]).head? = some '-') := by
  obtain ⟨hempty, hhyphen⟩ := head?_chars_single (d := d) p j k
  rw [← hempty, ← hhyphen]
  obtain ⟨hread, -, -⟩ | ⟨m, t, hscans, hread, -, -⟩ := read_cases h j
  · simp [hread]
  · obtain ⟨hne, hhead⟩ := head?_quoted hscans
    simp [hread, hne, hhead]

/-- The first lexeme is a hyphen where the first character is one. -/
theorem head?_lexemes (h : ∀ p ∈ ps, p.Unmarked d) (j k : Nat) :
    (lexemes d j ps).head? = some (.bare '-') ↔ (chars d k ps).head? = some '-' := by
  induction ps generalizing j k with
  | nil => simp [lexemes, chars, texts]
  | cons p ps ih =>
    obtain ⟨hp, hps⟩ := List.forall_mem_cons.mp h
    obtain ⟨hempty, hhyphen⟩ := head?_lexemes_single hp j k
    rw [← List.singleton_append, lexemes_append, chars_append]
    by_cases hnil : lexemes d j [p] = []
    · rw [hnil, hempty.mp hnil]
      exact ih hps _ _
    · obtain ⟨x, xs, hx⟩ := List.exists_cons_of_ne_nil hnil
      obtain ⟨c, cs, hc⟩ := List.exists_cons_of_ne_nil (hnil ∘ hempty.mpr)
      rw [hx, hc] at hhyphen ⊢
      exact hhyphen

/-- A sign before a hyphen is the start of a comment. -/
theorem SignBeforeHyphen.comment (h : SignBeforeHyphen d ps) (hps : ∀ p ∈ ps, p.Unmarked d)
    (k : Nat) : [.bare '-', .bare '-'] <:+: lexemes d k ps := by
  obtain ⟨x, ⟨before, after, rfl⟩, hhead⟩ := h
  rw [Node.piecesIn_negation] at hps ⊢
  have hx : ∀ p ∈ x.piecesIn d (some .unaryOperation), p.Unmarked d := by
    intro p hp
    exact hps p (List.mem_append_left _ (List.mem_append_right _ (List.mem_cons_of_mem _ hp)))
  rw [toList_sql] at hhead
  rw [lexemes_append, lexemes_append, lexemes_cons, (lexemes_text Layout.unmarked_hyphen _).2]
  obtain ⟨ls, hls⟩ := List.head?_eq_some_iff.mp ((head?_lexemes hx _ 0).mpr hhead)
  rw [hls]
  exact ⟨lexemes d k before, ls ++ _, by simp; rfl⟩

end Piece

/-- Texts without marks, hyphens, slashes and asterisks. -/
def CommentFree (s : String) : Prop :=
  ∀ c ∈ s.toList, c ∉ Dialect.anyMarks ∧ c ∉ commentChars

instance : DecidablePred CommentFree := fun s =>
  inferInstanceAs (Decidable (∀ c ∈ s.toList, c ∉ Dialect.anyMarks ∧ c ∉ commentChars))

theorem unmarked_of_commentFree {d : Dialect} {s : String} (h : CommentFree s) :
    ∀ c ∈ s.toList, d.Unmarked c := fun c hc => d.unmarked_of_not_mem (h c hc).1

/-- Outside quotes nothing in a text opens a comment, but for two hyphens of which the first is the
sign of a negation. -/
def Piece.CommentedBySigns (d : Dialect) (ps : List Piece) (sql : String) : Prop :=
  ∃ ls, d.lexemes? sql = some ls ∧ ¬ [.bare '/', .bare '*'] <:+: ls ∧
    ([.bare '-', .bare '-'] <:+: ls ↔ SignBeforeHyphen d ps)

namespace Node

variable {d : Dialect} {n : Node}

/-- The sign of a negation opens a comment where what it negates starts with a hyphen. -/
theorem uncommented_negation {x : Node}
    (hx : ∀ p ∈ x.piecesIn d (some .unaryOperation), p.Unmarked d)
    (h : Piece.Uncommented d (x.piecesIn d (some .unaryOperation))) :
    Piece.Uncommented d (.text "-" :: x.piecesIn d (some .unaryOperation)) := by
  have hsign : ∀ k, Piece.lexemes d k [.text "-"] = [.bare '-'] :=
    fun k => (Piece.lexemes_text Layout.unmarked_hyphen k).2
  constructor
  · intro k hk
    rw [Piece.lexemes_cons, hsign] at hk
    obtain hk | hk | ⟨hlast, -⟩ := Lexeme.pair_infix_append hk
    · simpa using hk.length_le
    · exact h.asterisk _ hk
    · cases hlast
  · intro k hk
    rw [Piece.lexemes_cons, hsign] at hk
    obtain hk | hk | ⟨-, hhead⟩ := Lexeme.pair_infix_append hk
    · simpa using hk.length_le
    · exact (h.hyphens _ hk).mono (List.suffix_cons _ _).isInfix
    · refine ⟨x, ?_, ?_⟩
      · simp [piecesIn_negation]
      · rw [Piece.toList_sql]
        exact (Piece.head?_lexemes hx _ 0).mp hhead

theorem uncommented_piecesIn (hn : n.Every (Shape.Settled CommentFree)) (parent : Option Kind) :
    Piece.Uncommented d (n.piecesIn d parent) := by
  have hV : ∀ s, CommentFree s → ∀ c ∈ s.toList, d.Unmarked c ∧ c ∉ commentChars :=
    fun s hs c hc => ⟨unmarked_of_commentFree hs c hc, (hs c hc).2⟩
  suffices h : (∀ p ∈ n.piecesIn d parent, p.Unmarked d) ∧
      Piece.Uncommented d (n.piecesIn d parent) from h.2
  refine piecesInduction
    (Q := fun ps => (∀ p ∈ ps, p.Unmarked d) ∧ Piece.Uncommented d ps) d ?_ ?_ hn parent
  · intro ps h
    exact ⟨h.unmarked (fun _ => unmarked_of_commentFree) fun _ h => h.1,
      h.uncommented hV fun _ h => h.2⟩
  · intro x ⟨hx, h⟩
    exact ⟨List.forall_mem_cons.mpr ⟨Layout.unmarked_hyphen, hx⟩, uncommented_negation hx h⟩

theorem commented_pieces (hn : n.Every (Shape.Settled CommentFree)) :
    Piece.CommentedBySigns d (n.pieces d) (Piece.sql d (n.pieces d)) := by
  have hV : ∀ s, CommentFree s → ∀ c ∈ s.toList, d.Unmarked c := fun _ => unmarked_of_commentFree
  have huncommented := uncommented_piecesIn (d := d) hn none
  exact ⟨_, lexemes?_sql hV hn, huncommented.asterisk 0, huncommented.hyphens 0,
    fun h => h.comment (unmarked_piecesIn hV hn none) 0⟩

/-- A comment starts in a text just where the operand of a negation starts with a hyphen. -/
theorem opensComment_iff (d : Dialect) {n : Node} (hw : n.wellFormed = true)
    (hn : n.Every (Shape.NoRaw CommentFree)) :
    (∀ sql values, n.render d = .ok (sql, values) → Piece.CommentedBySigns d (n.pieces d) sql) ∧
      ∀ c, n.compile d = .ok c → Piece.CommentedBySigns d (c.query.pieces d) c.sql := by
  constructor
  · intro sql values h
    rw [sql_of_render_eq_ok h]
    exact commented_pieces (settled_of_noRaw hw hn)
  · intro c h
    rw [eq_of_compile_eq_ok hw h]
    exact commented_pieces (settled_rewrite_adapt (by decide) d hw hn)

/-- A difference and a negative number, with blanks between them. -/
theorem opensComment_sub_negative :
    let n : Node := ⟨.binaryOperation ⟨.reference none ⟨.column ⟨.identifier "a"⟩⟩⟩
      ⟨.operator .sub⟩ ⟨.value (.int (-5)) true⟩⟩
    n.wellFormed = true ∧ n.Every (Shape.NoRaw CommentFree) ∧
      ∃ sql c, n.render .postgres = .ok (sql, []) ∧ n.compile .postgres = .ok c ∧
        Piece.CommentedBySigns .postgres (n.pieces .postgres) sql ∧
        Piece.CommentedBySigns .postgres (c.query.pieces .postgres) c.sql := by
  intro n
  have hw : n.wellFormed = true := by decide
  have hn : n.Every (Shape.NoRaw CommentFree) := by decide
  obtain ⟨hrender, hcompile⟩ := opensComment_iff .postgres hw hn
  have hok : n.render .postgres = .ok (_, _) := render_of_no_refusal rfl
  exact ⟨hw, hn, _, _, hok, compile_of_no_refusal hw rfl, hrender _ _ hok,
    hcompile _ (compile_of_no_refusal hw rfl)⟩

/-- The negation of a negation is a comment. -/
theorem comment_negate_negate :
    let n : Node := ⟨.unaryOperation ⟨.operator .negate⟩ ⟨.unaryOperation ⟨.operator .negate⟩
      ⟨.reference none ⟨.column ⟨.identifier "a"⟩⟩⟩⟩⟩
    n.wellFormed = true ∧ n.Every (Shape.NoRaw CommentFree) ∧
      ∃ c ls, n.compile .postgres = .ok c ∧ c.sql = "--\"a\"" ∧
        Dialect.lexemes? .postgres c.sql = some ls ∧ [.bare '-', .bare '-'] <:+: ls := by
  intro n
  have hw : n.wellFormed = true := by decide
  have hread : Dialect.lexemes? .postgres "--\"a\"" =
      some [.bare '-', .bare '-', .quoted .name "a"] := by decide
  refine ⟨hw, by decide, _, _, compile_of_no_refusal hw rfl, rfl, hread, ?_⟩
  exact (List.prefix_append _ _).isInfix

end Node

end SqlTree
