import SqlTree.Dialect

/-!
# Lexemes

How a database reads the text of a statement: marks enclose names and texts, a closing mark written
twice is one character of what it encloses, and in the texts of one dialect a backslash keeps the
next character from its meaning.  What is written before and after a quoted token does not change
how it is read as long as no mark touches it (`Dialect.Scans.append`).
-/

namespace SqlTree

/-- What is said of the characters of a list is decided along the list; another instance would try
all characters there are. -/
instance decidableForallChar {p : Char → Prop} [DecidablePred p] (cs : List Char) :
    Decidable (∀ c ∈ cs, p c) :=
  cs.decidableBAll p

/-- What stands between two marks. -/
inductive Mark where
  | name
  | string
  deriving DecidableEq, Repr

/-- A character that stands for itself, or what two marks enclose. -/
inductive Lexeme where
  | bare (c : Char)
  | quoted (mark : Mark) (text : String)
  deriving DecidableEq, Repr

namespace Lexeme

def name? : Lexeme → Option String
  | .quoted .name s => some s
  | _ => none

def isString : Lexeme → Bool
  | .quoted .string _ => true
  | _ => false

end Lexeme

/-- Where a reader stands; what a token encloses is kept last character first. -/
inductive Mode where
  | bare
  | inside (mark : Mark) (text : List Char)
  /-- After a backslash. -/
  | escaped (mark : Mark) (text : List Char)
  /-- After a closing mark, which may turn out to be the first of two. -/
  | closed (mark : Mark) (text : List Char)
  deriving DecidableEq, Repr

/-- What is still to be put out if the text ends here; it may not end between two marks. -/
def Mode.ended? : Mode → Option (List Lexeme)
  | .bare => some []
  | .closed m t => some [.quoted m (.ofList t.reverse)]
  | _ => none

namespace Dialect

def opened? (d : Dialect) (c : Char) : Option Mark :=
  if c = d.marks.1 then some .name else if c = '\'' then some .string else none

def closing (d : Dialect) : Mark → Char
  | .name => d.marks.2
  | .string => '\''

def escapes (d : Dialect) (m : Mark) (c : Char) : Bool :=
  d == .mysql && m == .string && c == '\\'

/-- One character outside quotes. -/
def start (d : Dialect) (c : Char) : List Lexeme × Mode :=
  match d.opened? c with
  | some m => ([], .inside m [])
  | none => ([.bare c], .bare)

/-- One character, and what was read with it. -/
def step (d : Dialect) : Mode → Char → List Lexeme × Mode
  | .bare, c => d.start c
  | .inside m t, c =>
    if c = d.closing m then ([], .closed m t)
    else if d.escapes m c then ([], .escaped m t)
    else ([], .inside m (c :: t))
  | .escaped m t, c => ([], .inside m (c :: t))
  | .closed m t, c =>
    if c = d.closing m then ([], .inside m (c :: t))
    else (.quoted m (.ofList t.reverse) :: (d.start c).1, (d.start c).2)

def run (d : Dialect) : Mode → List Char → List Lexeme × Mode
  | m, [] => ([], m)
  | m, c :: cs =>
    let (ls, m) := d.step m c
    let (ls', m) := d.run m cs
    (ls ++ ls', m)

/-- The lexemes of a text that does not end between two marks. -/
def lexemes? (d : Dialect) (s : String) : Option (List Lexeme) :=
  (d.run .bare s.toList).2.ended?.map ((d.run .bare s.toList).1 ++ ·)

variable {d : Dialect} {l r l' r' : Bool} {cs ds : List Char} {ls ms : List Lexeme} {m : Mark}
  {t : List Char}

theorem run_append (mode : Mode) (cs ds : List Char) :
    d.run mode (cs ++ ds) =
      ((d.run mode cs).1 ++ (d.run (d.run mode cs).2 ds).1, (d.run (d.run mode cs).2 ds).2) := by
  induction cs generalizing mode with
  | nil => rfl
  | cons c cs ih => simp [run, ih]

/-- A text between others is read on its own.  The flags tell whether a closing mark may stand
directly before it, and whether an opening mark may stand directly after it. -/
def Scans (d : Dialect) (l r : Bool) (cs : List Char) (ls : List Lexeme) : Prop :=
  ∀ mode pending, mode.ended? = some pending → (l = true ∨ mode = .bare) →
    ∃ pending', (d.run mode cs).2.ended? = some pending' ∧
      (d.run mode cs).1 ++ pending' = pending ++ ls ∧
      (r = true → (d.run mode cs).2 = .bare ∨ (d.run mode cs).2 = mode)

namespace Scans

theorem nil : d.Scans true true [] [] := by
  intro mode pending hm _
  exact ⟨pending, hm, by simp [run], fun _ => .inr rfl⟩

theorem weaken (h : d.Scans l r cs ls) (hl : l' = true → l = true) (hr : r' = true → r = true) :
    d.Scans l' r' cs ls := by
  intro mode pending hm hmode
  obtain ⟨pending', hm', hout, hend⟩ := h mode pending hm (hmode.imp_left hl)
  exact ⟨pending', hm', hout, fun h => hend (hr h)⟩

theorem append (h : d.Scans l r cs ls) (h' : d.Scans l' r' ds ms) (hgap : (r || l') = true) :
    d.Scans (l && l') (r && r') (cs ++ ds) (ls ++ ms) := by
  intro mode pending hm hmode
  obtain ⟨pending', hm', hout, hend⟩ := h mode pending hm (by
    simp only [Bool.and_eq_true] at hmode
    exact hmode.imp_left And.left)
  have hmode' : l' = true ∨ (d.run mode cs).2 = .bare := by
    cases hl' : l' with
    | true => exact .inl rfl
    | false =>
      subst hl'
      have hbare : mode = .bare := by simpa using hmode
      have hr : r = true := by simpa using hgap
      obtain he | he := hend hr
      · exact .inr he
      · exact .inr (he.trans hbare)
  obtain ⟨pending'', hm'', hout', hend'⟩ := h' _ pending' hm' hmode'
  refine ⟨pending'', ?_, ?_, ?_⟩
  · rwa [run_append]
  · rw [run_append, List.append_assoc, hout', ← List.append_assoc, hout, List.append_assoc]
  · intro hrr
    obtain ⟨hr, hr'⟩ := Bool.and_eq_true_iff.mp hrr
    rw [run_append]
    obtain he | he := hend' hr'
    · exact .inl he
    · rw [he]
      exact hend hr

theorem lexemes? {s : String} (h : d.Scans l r s.toList ls) : d.lexemes? s = some ls := by
  obtain ⟨pending, hm, hout, -⟩ := h .bare [] rfl (.inr rfl)
  rw [Dialect.lexemes?, hm, Option.map_some, hout]
  rfl

end Scans

/-- Characters that neither open nor close anything. -/
def Unmarked (d : Dialect) (c : Char) : Prop := d.opened? c = none ∧ c ≠ d.closing .name

/-- The marks of all dialects. -/
def anyMarks : List Char := ['\'', '"', '\x60', '[', ']']

theorem unmarked_of_not_mem (d : Dialect) {c : Char} (h : c ∉ anyMarks) : d.Unmarked c := by
  simp only [anyMarks, List.mem_cons, List.not_mem_nil, or_false, not_or] at h
  obtain ⟨hquote, hdouble, htick, hleft, hright⟩ := h
  cases d <;> simp [Unmarked, opened?, closing, marks, *]

theorem run_bare (h : ∀ c ∈ cs, d.Unmarked c) : d.run .bare cs = (cs.map .bare, .bare) := by
  induction cs with
  | nil => rfl
  | cons c cs ih =>
    obtain ⟨hc, hcs⟩ := List.forall_mem_cons.mp h
    simp [run, step, start, hc.1, ih hcs]

theorem Unmarked.ne_closing {c : Char} (h : d.Unmarked c) (m : Mark) : c ≠ d.closing m := by
  cases m with
  | name => exact h.2
  | string =>
    rintro rfl
    have hopen := h.1
    unfold opened? at hopen
    split at hopen
    · cases hopen
    · cases hopen

/-- Characters outside quotes end the token before them and leave nothing open. -/
theorem run_of_unmarked (hcs : ∀ c ∈ cs, d.Unmarked c) (hne : cs ≠ []) {mode : Mode}
    {pending : List Lexeme} (hm : mode.ended? = some pending) :
    d.run mode cs = (pending ++ cs.map .bare, .bare) := by
  obtain ⟨c, cs, rfl⟩ := List.exists_cons_of_ne_nil hne
  obtain ⟨hc, hcs⟩ := List.forall_mem_cons.mp hcs
  have hstep : d.step mode c = (pending ++ [.bare c], .bare) := by
    cases mode with
    | bare =>
      obtain rfl := Option.some.inj hm
      simp [step, start, hc.1]
    | closed m t =>
      obtain rfl := Option.some.inj hm
      simp [step, start, hc.1, hc.ne_closing m]
    | inside m t => cases hm
    | escaped m t => cases hm
  simp [run, hstep, run_bare hcs]

namespace Scans

theorem bare (h : ∀ c ∈ cs, d.Unmarked c) : d.Scans true true cs (cs.map .bare) := by
  intro mode pending hm _
  by_cases hne : cs = []
  · subst hne
    exact Scans.nil mode pending hm (.inl rfl)
  · rw [run_of_unmarked h hne hm]
    exact ⟨[], rfl, by simp, fun _ => .inl rfl⟩

/-- After characters outside quotes anything may follow. -/
theorem after (hcs : ∀ c ∈ cs, d.Unmarked c) (hne : cs ≠ []) (h : d.Scans l r ds ms) :
    d.Scans true r (cs ++ ds) (cs.map .bare ++ ms) := by
  intro mode pending hm _
  obtain ⟨pending', hm', hout, hend⟩ := h .bare [] rfl (.inr rfl)
  rw [run_append, run_of_unmarked hcs hne hm]
  refine ⟨pending', hm', ?_, fun hr => .inl ?_⟩
  · rw [List.append_assoc, hout]
    simp
  · obtain he | he := hend hr
    · exact he
    · exact he

/-- Before characters outside quotes anything may stand. -/
theorem before (h : d.Scans l r cs ls) (hds : ∀ c ∈ ds, d.Unmarked c) (hne : ds ≠ []) :
    d.Scans l true (cs ++ ds) (ls ++ ds.map .bare) := by
  intro mode pending hm hmode
  obtain ⟨pending', hm', hout, -⟩ := h mode pending hm hmode
  rw [run_append, run_of_unmarked hds hne hm']
  refine ⟨[], rfl, ?_, fun _ => .inl rfl⟩
  rw [List.append_nil, ← List.append_assoc, hout, List.append_assoc]

end Scans

/-- What is read from one mark to the other is one token. -/
theorem Scans.quoted {o : Char} (ho : d.opened? o = some m)
    (hcs : d.run (.inside m []) cs = ([], .inside m t)) :
    d.Scans false false (o :: cs ++ [d.closing m]) [.quoted m (.ofList t.reverse)] := by
  intro mode pending hm hmode
  obtain rfl : mode = .bare := by simpa using hmode
  obtain rfl := Option.some.inj hm
  refine ⟨[.quoted m (.ofList t.reverse)], ?_, ?_, nofun⟩
  all_goals simp [run, step, start, ho, run_append, hcs, Mode.ended?]

/-- A mark that is written twice is read as one character. -/
theorem run_doubled (hd : ∀ c, d.escapes m c = false) (cs t : List Char) :
    d.run (.inside m t) (Text.doubled (d.closing m) cs) = ([], .inside m (cs.reverse ++ t)) := by
  induction cs generalizing t with
  | nil => rfl
  | cons c cs ih =>
    by_cases hc : c = d.closing m
    · simp [Text.doubled, hc, run, step, ih]
    · simp [Text.doubled, hc, run, step, hd, ih]

/-- So is a backslash that is written twice, and a mark beside it. -/
theorem run_doubled_doubled (cs t : List Char) :
    run .mysql (.inside .string t) (Text.doubled '\'' (Text.doubled '\\' cs)) =
      ([], .inside .string (cs.reverse ++ t)) := by
  induction cs generalizing t with
  | nil => rfl
  | cons c cs ih =>
    by_cases hb : c = '\\'
    · simp [Text.doubled, hb, run, step, closing, escapes, ih]
    · by_cases hq : c = '\''
      · simp [Text.doubled, hq, run, step, closing, ih]
      · simp [Text.doubled, hb, hq, run, step, closing, escapes, ih]

/-- Without a mark and a backslash all characters stand for themselves. -/
theorem run_inside (hcs : ∀ c ∈ cs, c ≠ '\'' ∧ c ≠ '\\') (t : List Char) :
    d.run (.inside .string t) cs = ([], .inside .string (cs.reverse ++ t)) := by
  induction cs generalizing t with
  | nil => rfl
  | cons c cs ih =>
    obtain ⟨hc, hcs⟩ := List.forall_mem_cons.mp hcs
    simp [run, step, closing, escapes, hc.1, hc.2, ih hcs]

theorem opened?_fst_marks (d : Dialect) : d.opened? d.marks.1 = some .name := if_pos rfl

theorem opened?_apostrophe (d : Dialect) : d.opened? '\'' = some .string := by
  cases d <;> rfl

/-- A quoted name is read as the name. -/
theorem scans_quote (d : Dialect) (s : String) :
    d.Scans false false (d.quote s).toList [.quoted .name s] := by
  have hbody := run_doubled (d := d) (m := .name) (by simp [escapes]) s.toList []
  have hquoted := Scans.quoted d.opened?_fst_marks hbody
  simpa [quote, Text.enclosed, closing] using hquoted

end Dialect

end SqlTree
