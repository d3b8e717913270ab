import SqlTree.Proofs.Render.Lexeme
import SqlTree.Proofs.Value.Texts

/-!
# Literals

The literal of a value is a word or a number with at most one sign in front, or it is one quoted
token (`Dialect.literal_cases`).
-/

namespace SqlTree

theorem isDigit_of_mem_toDigits {n : Nat} {c : Char} (h : c ∈ Nat.toDigits 10 n) :
    c.isDigit = true := Nat.isDigit_of_mem_toDigits (by decide) (by decide) h

/-- Letters, digits and points after at most one hyphen. -/
def Numeral (cs : List Char) : Prop :=
  ∃ ds : List Char, (cs = ds ∨ cs = '-' :: ds) ∧ ∀ c ∈ ds, c.isAlphanum = true ∨ c = '.'

namespace Numeral

theorem ofDigit {c : Char} (h : c.isDigit = true) : c.isAlphanum = true ∨ c = '.' :=
  .inl (by rw [Char.isAlphanum, h, Bool.or_true])

theorem toString_int (n : Int) : Numeral (toString n).toList := by
  cases n with
  | ofNat n =>
    refine ⟨Nat.toDigits 10 n, .inl ?_, fun c hc => ofDigit (isDigit_of_mem_toDigits hc)⟩
    show n.repr.toList = _
    rw [Nat.repr_eq_ofList_toDigits, String.toList_ofList]
  | negSucc n =>
    refine ⟨Nat.toDigits 10 (n + 1), .inr ?_, fun c hc => ofDigit (isDigit_of_mem_toDigits hc)⟩
    show ("-" ++ n.succ.repr).toList = _
    rw [Nat.repr_eq_ofList_toDigits, String.toList_append, String.toList_ofList]
    simp

theorem ofSign (negative : Bool) {ds : List Char} (h : ∀ c ∈ ds, c.isAlphanum = true ∨ c = '.') :
    Numeral ((if negative then "-" else "").toList ++ ds) := by
  cases negative
  · exact ⟨ds, .inl rfl, h⟩
  · exact ⟨ds, .inr rfl, h⟩

theorem positional (d : Decimal) : Numeral d.positional.toList := by
  have hdigits : ∀ c ∈ Decimal.digitChars d.digits, c.isAlphanum = true ∨ c = '.' := by
    intro c hc
    rw [Decimal.digitChars, Nat.toString_eq_ofList_toDigits, String.toList_ofList] at hc
    exact ofDigit (isDigit_of_mem_toDigits hc)
  have hzeros : ∀ n, ∀ c ∈ Decimal.zeros n, c.isAlphanum = true ∨ c = '.' := by
    intro n c hc
    rw [List.eq_of_mem_replicate hc]
    exact .inl rfl
  have hpoint : ∀ c ∈ "0.".toList, c.isAlphanum = true ∨ c = '.' := by decide
  unfold Decimal.positional
  simp only
  split
  · rw [String.toList_append, String.toList_ofList]
    exact ofSign _ (List.forall_mem_append.mpr ⟨hdigits, hzeros _⟩)
  · split
    · rw [String.toList_append, String.toList_ofList]
      refine ofSign _ (List.forall_mem_append.mpr ⟨?_, List.forall_mem_cons.mpr ⟨.inr rfl, ?_⟩⟩)
      · exact fun c hc => hdigits c (List.mem_of_mem_take hc)
      · exact fun c hc => hdigits c (List.mem_of_mem_drop hc)
    · rw [String.append_assoc, String.toList_append, String.toList_append,
        String.toList_ofList (l := _ ++ _)]
      refine ofSign _ (List.forall_mem_append.mpr ⟨hpoint, ?_⟩)
      exact List.forall_mem_append.mpr ⟨hzeros _, hdigits⟩

theorem floatText (x : Float) : Numeral (Value.floatText x).toList := by
  unfold Value.floatText
  split
  · exact positional _
  · split
    · exact ⟨"NaN".toList, .inl rfl, by decide⟩
    · split
      · exact ⟨"inf".toList, .inr rfl, by decide⟩
      · exact ⟨"inf".toList, .inl rfl, by decide⟩

end Numeral

/-- Texts whose characters all stand for themselves between two marks. -/
def Enclosable (cs : List Char) : Prop := ∀ c ∈ cs, c ≠ '\'' ∧ c ≠ '\\'

namespace Enclosable

variable {cs ds : List Char}

instance : DecidablePred Enclosable :=
  fun cs => inferInstanceAs (Decidable (∀ c ∈ cs, c ≠ '\'' ∧ c ≠ '\\'))

theorem append (h : Enclosable cs) (h' : Enclosable ds) : Enclosable (cs ++ ds) :=
  List.forall_mem_append.mpr ⟨h, h'⟩

theorem ofDigits (h : ∀ c ∈ cs, c.isDigit = true) : Enclosable cs := by
  intro c hc
  have hdigit := h c hc
  constructor
  all_goals
    rintro rfl
    cases hdigit

theorem hexDigits (n v : Nat) : Enclosable (Uuid.hexDigits n v) := by
  have hdigit : ∀ k : Fin 16, Nat.digitChar k ≠ '\'' ∧ Nat.digitChar k ≠ '\\' := by decide
  intro c hc
  obtain ⟨k, hk, rfl⟩ := Uuid.exists_of_mem_hexDigits hc
  exact hdigit ⟨k, hk⟩

theorem uuid (u : Uuid) : Enclosable u.text.toList := by
  have hdigits := hexDigits 32 u.bits.toNat
  have htake : ∀ i j, Enclosable (((Uuid.hexDigits 32 u.bits.toNat).drop i).take j) :=
    fun i j c hc => hdigits c (List.mem_of_mem_drop (List.mem_of_mem_take hc))
  have hdrop : ∀ i, Enclosable ((Uuid.hexDigits 32 u.bits.toNat).drop i) :=
    fun i c hc => hdigits c (List.mem_of_mem_drop hc)
  have hyphen : ∀ {cs}, Enclosable cs → Enclosable ('-' :: cs) :=
    append (show Enclosable ['-'] by decide)
  rw [Uuid.text, String.toList_ofList]
  exact (((htake 0 8).append (hyphen (htake 8 4))).append (hyphen (htake 12 4))).append
    (hyphen (htake 16 4)) |>.append (hyphen (hdrop 20))

theorem padded (width n : Nat) : Enclosable (SqlTree.padded width n).toList :=
  ofDigits fun _ => isDigit_of_mem_padded

theorem yearText (y : Int) : Enclosable (SqlTree.yearText y).toList := by
  unfold SqlTree.yearText
  split
  · exact padded _ _
  · rw [String.toList_append]
    refine append ?_ (padded _ _)
    split <;> decide

theorem date (d : Date) : Enclosable d.text.toList := by
  have hyphen : Enclosable "-".toList := by decide
  simp only [Date.text, String.toList_append]
  exact (((yearText _).append hyphen).append (padded _ _)).append hyphen |>.append (padded _ _)

theorem fractionText (nano : Nat) : Enclosable (SqlTree.fractionText nano).toList := by
  have hpoint : Enclosable ".".toList := by decide
  unfold SqlTree.fractionText
  split
  · exact nofun
  · repeat' split
    all_goals
      rw [String.toList_append]
      exact hpoint.append (padded _ _)

theorem dateTime (t : DateTime) : Enclosable t.text.toList := by
  have hblank : Enclosable " ".toList := by decide
  have hcolon : Enclosable ":".toList := by decide
  simp only [DateTime.text, Time.text, String.toList_append]
  refine ((date _).append hblank).append (append ?_ (fractionText _))
  exact (((padded _ _).append hcolon).append (padded _ _)).append hcolon |>.append (padded _ _)

end Enclosable

theorem Numeral.mem {cs : List Char} (h : Numeral cs) {c : Char} (hc : c ∈ cs) :
    c.isAlphanum = true ∨ c ∈ ['.', '-'] := by
  obtain ⟨ds, hcs, hds⟩ := h
  have hds : c ∈ ds → c.isAlphanum = true ∨ c ∈ ['.', '-'] := by
    intro hc
    obtain h | rfl := hds c hc
    · exact .inl h
    · exact .inr List.mem_cons_self
  obtain rfl | rfl := hcs
  · exact hds hc
  · obtain rfl | hc := List.mem_cons.mp hc
    · exact .inr (by decide)
    · exact hds hc

theorem Numeral.unmarked {cs : List Char} (h : Numeral cs) (d : Dialect) :
    ∀ c ∈ cs, d.Unmarked c := by
  intro c hc
  apply d.unmarked_of_not_mem
  have hmarks : ∀ c ∈ Dialect.anyMarks, ¬ (c.isAlphanum = true ∨ c ∈ ['.', '-']) := by decide
  exact fun hm => hmarks c hm (h.mem hc)

/-- Values whose literals stand between quotes. -/
def Value.isQuoted : Value → Bool
  | .null => false
  | .bool _ => false
  | .int _ => false
  | .float _ => false
  | _ => true

namespace Dialect

variable (d : Dialect)

/-- A placeholder is a mark of its own and a number. -/
theorem mem_placeholder {n : Nat} {c : Char} (hc : c ∈ (d.placeholder n).toList) :
    c.isDigit = true ∨ c ∈ ['$', '@', ':', '?'] := by
  have hdigit : c ∈ Nat.toDigits 10 n → c.isDigit = true := isDigit_of_mem_toDigits
  cases d <;> simp [placeholder] at hc ⊢ <;> grind

theorem numeral_literal {v : Value} (h : v.isQuoted = false) : Numeral (d.literal v).toList := by
  cases v with
  | null => exact ⟨"null".toList, .inl rfl, by decide⟩
  | bool b =>
    refine ⟨(d.boolLiteral b).toList, .inl rfl, ?_⟩
    cases d <;> cases b <;> decide
  | int n => exact Numeral.toString_int n.toInt
  | float x => exact Numeral.floatText x
  | _ => cases h

/-- The text of a token between single quotes. -/
theorem scans_enclosable {s : String} (h : Enclosable s.toList) :
    d.Scans false false ("'" ++ s ++ "'").toList [.quoted .string s] := by
  have hquoted := Scans.quoted d.opened?_apostrophe (run_inside (d := d) h [])
  simpa [closing] using hquoted

theorem literal_string (s : String) :
    d.literal (.string s) = if d = .mysql then escapedText s else Value.quoted s := by
  cases d <;> rfl

theorem literal_json (j : Json) :
    d.literal (.json j) = if d = .mysql then escapedText j.compact else Value.quoted j.compact := by
  cases d <;> rfl

theorem literal_bytes (bs : List UInt8) :
    d.literal (.bytes bs) = "'" ++ Value.bytesText bs ++ "'" := by cases d <;> rfl

theorem literal_uuid (u : Uuid) : d.literal (.uuid u) = "'" ++ u.text ++ "'" := by cases d <;> rfl

theorem literal_dateTime (t : DateTime) : d.literal (.dateTime t) = "'" ++ t.text ++ "'" := by
  cases d <;> rfl

theorem literal_date (t : Date) : d.literal (.date t) = "'" ++ t.text ++ "'" := by
  cases d <;> rfl

/-- A quoted text is read as the text, whatever it holds. -/
theorem scans_text (s : String) :
    d.Scans false false (if d = .mysql then escapedText s else Value.quoted s).toList
      [.quoted .string s] := by
  by_cases hd : d = .mysql
  · subst hd
    have hquoted := Scans.quoted (opened?_apostrophe .mysql) (run_doubled_doubled s.toList [])
    simpa [escapedText, Text.enclosed, closing] using hquoted
  · have hescapes : ∀ c, d.escapes .string c = false := by simp [escapes, hd]
    have hquoted := Scans.quoted d.opened?_apostrophe (run_doubled hescapes s.toList [])
    simpa [hd, Value.quoted, Text.enclosed, closing] using hquoted

/-- Where a backslash is no character of its own, it is left out of the bytes that are read. -/
theorem exists_scans_bytes (bs : List UInt8) :
    ∃ text, d.Scans false false ("'" ++ Value.bytesText bs ++ "'").toList
      [.quoted .string text] := by
  have hdigits : Enclosable (bs.flatMap fun b => Uuid.hexDigits 2 b.toNat) := by
    intro c hc
    obtain ⟨b, -, hc⟩ := List.mem_flatMap.mp hc
    exact Enclosable.hexDigits _ _ c hc
  obtain ⟨t, ht⟩ : ∃ t, d.run (.inside .string []) ['\\', 'x'] = ([], .inside .string t) := by
    cases d <;> exact ⟨_, rfl⟩
  have hbody : d.run (.inside .string [])
      (['\\', 'x'] ++ bs.flatMap fun b => Uuid.hexDigits 2 b.toNat) =
        ([], .inside .string ((bs.flatMap fun b => Uuid.hexDigits 2 b.toNat).reverse ++ t)) := by
    rw [run_append, ht, run_inside hdigits]
    rfl
  have hquoted := Scans.quoted d.opened?_apostrophe hbody
  exact ⟨_, by simpa [Value.bytesText, closing] using hquoted⟩

/-- A literal between quotes is one token. -/
theorem exists_scans_literal {v : Value} (h : v.isQuoted = true) :
    ∃ text, d.Scans false false (d.literal v).toList [.quoted .string text] := by
  cases v with
  | string s =>
    rw [literal_string]
    exact ⟨_, d.scans_text s⟩
  | bytes bs =>
    rw [literal_bytes]
    exact d.exists_scans_bytes bs
  | json j =>
    rw [literal_json]
    exact ⟨_, d.scans_text j.compact⟩
  | uuid u =>
    rw [literal_uuid]
    exact ⟨_, d.scans_enclosable (Enclosable.uuid u)⟩
  | dateTime t =>
    rw [literal_dateTime]
    exact ⟨_, d.scans_enclosable (Enclosable.dateTime t)⟩
  | date t =>
    rw [literal_date]
    exact ⟨_, d.scans_enclosable (Enclosable.date t)⟩
  | _ => cases h

/-- A literal is a number or a word outside quotes, or it is one token. -/
theorem literal_cases (v : Value) :
    Numeral (d.literal v).toList ∨
      ∃ text, d.Scans false false (d.literal v).toList [.quoted .string text] := by
  cases hv : v.isQuoted with
  | false => exact .inl (d.numeral_literal hv)
  | true => exact .inr (d.exists_scans_literal hv)

end Dialect

end SqlTree
