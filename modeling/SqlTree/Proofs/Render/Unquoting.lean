import SqlTree.Proofs.Render.Literal

/-!
# Reading literals back

A literal between single quotes is read up to its closing quote, whatever is written after it, and
what is read is the text of the value (`Dialect.quotedText?_literal`).  The exception are bytes
written for MySQL: the backslash before their digits is read as an escape.
-/

namespace SqlTree

/-- The text of a value that is written between single quotes. -/
def Value.content? : Value → Option String
  | .string s => some s
  | .json j => some j.compact
  | .bytes bs => some (.ofList ('\\' :: 'x' ::
      bs.flatMap fun b => [Nat.digitChar (b.toNat / 16), Nat.digitChar (b.toNat % 16)]))
  | .uuid u => some u.text
  | .dateTime t => some t.text
  | .date d => some d.text
  | _ => none

def Value.isBytes : Value → Bool
  | .bytes _ => true
  | _ => false

namespace Dialect

/-- What a backslash and the character after it stand for. -/
def unescaped : Char → List Char
  | '0' => ['\x00']
  | 'b' => ['\x08']
  | 'n' => ['\n']
  | 'r' => ['\r']
  | 't' => ['\t']
  | 'Z' => ['\x1a']
  | '%' => ['\\', '%']
  | '_' => ['\\', '_']
  | c => [c]

/-- What stands before the closing quote, and what comes after it. -/
def content? (d : Dialect) : List Char → Option (List Char × List Char)
  | [] => none
  | [c] => if c = '\'' then some ([], []) else none
  | c :: e :: cs =>
    if c = '\'' then
      if e = '\'' then (d.content? cs).map fun r => ('\'' :: r.1, r.2) else some ([], e :: cs)
    else if d.escapes .string c then (d.content? cs).map fun r => (unescaped e ++ r.1, r.2)
    else (d.content? (e :: cs)).map fun r => (c :: r.1, r.2)

/-- Reads a text between single quotes from the front of a statement's text. -/
def quotedText? (d : Dialect) (s : String) : Option (String × String) :=
  match s.toList with
  | '\'' :: cs => (d.content? cs).map fun r => (.ofList r.1, .ofList r.2)
  | _ => none

variable {d : Dialect} {c : Char} {cs rest : List Char}

theorem content?_closing (h : rest.head? ≠ some '\'') :
    d.content? ('\'' :: rest) = some ([], rest) := by
  cases rest with
  | nil => rfl
  | cons e cs =>
    have he : e ≠ '\'' := by simpa using h
    simp [content?, he]

theorem content?_mark (cs : List Char) :
    d.content? ('\'' :: '\'' :: cs) = (d.content? cs).map fun r => ('\'' :: r.1, r.2) := rfl

theorem content?_escape (hc : d.escapes .string c = true) (e : Char) (cs : List Char) :
    d.content? (c :: e :: cs) = (d.content? cs).map fun r => (unescaped e ++ r.1, r.2) := by
  have hquote : c ≠ '\'' := by
    rintro rfl
    simp [escapes] at hc
  simp [content?, hquote, hc]

theorem content?_plain (hquote : c ≠ '\'') (hc : d.escapes .string c = false) (hcs : cs ≠ []) :
    d.content? (c :: cs) = (d.content? cs).map fun r => (c :: r.1, r.2) := by
  obtain ⟨e, cs, rfl⟩ := List.exists_cons_of_ne_nil hcs
  simp [content?, hquote, hc]

theorem closed_ne_nil (cs rest : List Char) : cs ++ '\'' :: rest ≠ [] :=
  List.append_ne_nil_of_right_ne_nil _ (List.cons_ne_nil _ _)

section Read

variable (hrest : rest.head? ≠ some '\'')
include hrest

/-- Without an escape, doubled quotes are all there is to undo. -/
theorem content?_doubled (hd : ∀ c, d.escapes .string c = false) (cs : List Char) :
    d.content? (Text.doubled '\'' cs ++ '\'' :: rest) = some (cs, rest) := by
  induction cs with
  | nil => exact content?_closing hrest
  | cons c cs ih =>
    by_cases hc : c = '\''
    · subst hc
      simp [Text.doubled, content?_mark, ih]
    · simp [Text.doubled, hc, content?_plain hc (hd c) (closed_ne_nil _ _), ih]

theorem content?_doubled_doubled (cs : List Char) :
    content? .mysql (Text.doubled '\'' (Text.doubled '\\' cs) ++ '\'' :: rest) =
      some (cs, rest) := by
  induction cs with
  | nil => exact content?_closing hrest
  | cons c cs ih =>
    by_cases hb : c = '\\'
    · subst hb
      simp [Text.doubled, content?_escape (d := .mysql) (c := '\\') rfl, unescaped, ih]
    · by_cases hq : c = '\''
      · subst hq
        simp [Text.doubled, content?_mark, ih]
      · have hplain : escapes .mysql .string c = false := by simp [escapes, hb]
        simp [Text.doubled, hb, hq, content?_plain hq hplain (closed_ne_nil _ _), ih]

theorem content?_enclosable (hcs : Enclosable cs) :
    d.content? (cs ++ '\'' :: rest) = some (cs, rest) := by
  induction cs with
  | nil => exact content?_closing hrest
  | cons c cs ih =>
    obtain ⟨hc, hcs⟩ := List.forall_mem_cons.mp hcs
    have hplain : d.escapes .string c = false := by simp [escapes, hc.2]
    simp [content?_plain hc.1 hplain (closed_ne_nil _ _), ih hcs]

end Read

theorem quotedText?_append {s : String} {content rest : String} {body : List Char}
    (hs : s.toList = '\'' :: body ++ ['\''])
    (h : d.content? (body ++ '\'' :: rest.toList) = some (content.toList, rest.toList)) :
    d.quotedText? (s ++ rest) = some (content, rest) := by
  have hlist : (s ++ rest).toList = '\'' :: (body ++ '\'' :: rest.toList) := by
    rw [String.toList_append, hs]
    simp
  simp [quotedText?, hlist, h]

section Literal

variable {rest : String} (hrest : rest.toList.head? ≠ some '\'')
include hrest

/-- A text is read as it was, whatever it holds. -/
theorem quotedText?_text (s : String) :
    d.quotedText? ((if d = .mysql then escapedText s else Value.quoted s) ++ rest) =
      some (s, rest) := by
  by_cases hd : d = .mysql
  · subst hd
    rw [if_pos rfl]
    exact quotedText?_append String.toList_ofList (content?_doubled_doubled hrest s.toList)
  · have hescapes : ∀ c, d.escapes .string c = false := by simp [escapes, hd]
    rw [if_neg hd]
    exact quotedText?_append String.toList_ofList (content?_doubled hrest hescapes s.toList)

theorem quotedText?_enclosable {s : String} (hs : Enclosable s.toList) :
    d.quotedText? ("'" ++ s ++ "'" ++ rest) = some (s, rest) :=
  quotedText?_append (by simp) (content?_enclosable hrest hs)

/-- The digits of bytes are read with the `x` before them, and with the backslash before it where
that is a character of its own. -/
theorem quotedText?_bytes (bs : List UInt8) :
    d.quotedText? ("'" ++ Value.bytesText bs ++ "'" ++ rest) =
      some (.ofList ((if d = .mysql then ['x'] else ['\\', 'x']) ++
        bs.flatMap fun b => Uuid.hexDigits 2 b.toNat), rest) := by
  have hdigits : Enclosable (bs.flatMap fun b => Uuid.hexDigits 2 b.toNat) := by
    intro c hc
    obtain ⟨b, -, hc⟩ := List.mem_flatMap.mp hc
    exact Enclosable.hexDigits _ _ c hc
  have hx : Enclosable ['x'] := by decide
  have hread := content?_enclosable (d := d) hrest (hx.append hdigits)
  have hbody : ("'" ++ Value.bytesText bs ++ "'").toList =
      '\'' :: ('\\' :: 'x' :: bs.flatMap fun b => Uuid.hexDigits 2 b.toNat) ++ ['\''] := by
    simp [Value.bytesText]
  refine quotedText?_append hbody ?_
  -- Nothing is doubled here, so the backslash is read as an escape where there is one.
  by_cases hd : d = .mysql
  · subst hd
    have hdigits := content?_enclosable (d := .mysql) hrest hdigits
    simp [content?_escape (d := .mysql) (c := '\\') rfl, unescaped, hdigits]
  · have hplain : d.escapes .string '\\' = false := by simp [escapes, hd]
    rw [List.cons_append, content?_plain (by decide) hplain (by simp)]
    simpa [hd] using hread

end Literal

theorem flatMap_hexDigits (bs : List UInt8) :
    (bs.flatMap fun b => Uuid.hexDigits 2 b.toNat) =
      bs.flatMap fun b => [Nat.digitChar (b.toNat / 16), Nat.digitChar (b.toNat % 16)] := by
  congr 1
  funext b
  have hb : b.toNat / 16 % 16 = b.toNat / 16 := Nat.mod_eq_of_lt (by have := b.toNat_lt; omega)
  simp [Uuid.hexDigits, hb]

/-- A literal between quotes is read to its end and no further, and what is read is the text of the
value unless the value is bytes written for MySQL, where the first backslash is lost. -/
theorem quotedText?_literal (d : Dialect) {v : Value} {content : String}
    (hv : v.content? = some content) {rest : String} (hrest : rest.toList.head? ≠ some '\'') :
    ∃ read, d.quotedText? (d.literal v ++ rest) = some (read, rest) ∧
      (read = content ↔ ¬ (d = .mysql ∧ v.isBytes = true)) ∧
      (d = .mysql ∧ v.isBytes = true → content = "\\" ++ read) := by
  cases v with
  | string s =>
    obtain rfl := Option.some.inj hv
    exact ⟨_, by rw [literal_string]; exact quotedText?_text hrest s, by simp [Value.isBytes]⟩
  | bytes bs =>
    obtain rfl := Option.some.inj hv
    refine ⟨_, by rw [literal_bytes]; exact quotedText?_bytes hrest bs, ?_⟩
    rw [flatMap_hexDigits]
    by_cases hd : d = .mysql
    · simp [hd, Value.isBytes, ← String.toList_inj]
    · simp [hd]
  | json j =>
    obtain rfl := Option.some.inj hv
    exact ⟨_, by rw [literal_json]; exact quotedText?_text hrest _, by simp [Value.isBytes]⟩
  | uuid u =>
    obtain rfl := Option.some.inj hv
    exact ⟨_, by rw [literal_uuid]; exact quotedText?_enclosable hrest (.uuid u),
      by simp [Value.isBytes]⟩
  | dateTime t =>
    obtain rfl := Option.some.inj hv
    exact ⟨_, by rw [literal_dateTime]; exact quotedText?_enclosable hrest (.dateTime t),
      by simp [Value.isBytes]⟩
  | date t =>
    obtain rfl := Option.some.inj hv
    exact ⟨_, by rw [literal_date]; exact quotedText?_enclosable hrest (.date t),
      by simp [Value.isBytes]⟩
  | _ => cases hv

/-- A document with escapes and quotes of its own, before a text with a quote. -/
theorem quotedText?_literal_document :
    let v : Value := .json (.object [("k\"", .string "it's C:\\")])
    ∃ content rest : String, v.content? = some content ∧ rest.toList.head? ≠ some '\'' ∧
      quotedText? .mysql (literal .mysql v ++ rest) = some (content, rest) := by
  intro v
  have hrest : (", 'b'" : String).toList.head? ≠ some '\'' := by decide
  obtain ⟨read, hread, hiff, -⟩ := quotedText?_literal .mysql (v := v) rfl hrest
  exact ⟨_, _, rfl, hrest, hiff.mpr (by simp [v, Value.isBytes]) ▸ hread⟩

/-- One byte written for MySQL is read without the backslash. -/
theorem quotedText?_bytes_mysql :
    let v : Value := .bytes [0x41]
    v.content? = some "\\x41" ∧ literal .mysql v = "'\\x41'" ∧
      quotedText? .mysql (literal .mysql v ++ "") = some ("x41", "") ∧
      ¬ quotedText? .mysql (literal .mysql v ++ "") = some ("\\x41", "") := by
  decide

end Dialect

end SqlTree
