import SqlTree.Calendar
import SqlTree.Proofs.Text.Trimming
import SqlTree.Uuid
import Mathlib.Algebra.Group.Nat.Defs

/-!
# Texts that are read back

A date, a date with a time of day and an identifier are read from their texts as what they were:
`Date.ofText?_text`, `DateTime.ofText?_iso` and `Uuid.ofText?_text`.
-/

namespace SqlTree

/-! ## Numbers in dates -/

theorem toList_padded (width n : Nat) : (padded width n).toList =
    List.replicate (width - (Nat.toDigits 10 n).length) '0' ++ Nat.toDigits 10 n := by
  rw [padded, String.toList_ofList, Nat.toString_eq_ofList_toDigits, String.toList_ofList]

theorem isDigit_of_mem_padded {width n : Nat} {c : Char} (h : c ∈ (padded width n).toList) :
    c.isDigit = true := by
  rw [toList_padded, List.mem_append] at h
  obtain h | h := h
  · rw [List.eq_of_mem_replicate h]
    rfl
  · exact Nat.isDigit_of_mem_toDigits (by decide) (by decide) h

theorem padded_ne_nil (width n : Nat) : (padded width n).toList ≠ [] := by
  rw [toList_padded]
  exact List.append_ne_nil_of_right_ne_nil _ Nat.toDigits_ne_nil

theorem length_padded {width n : Nat} (hw : 0 < width) (hn : n < 10 ^ width) :
    (padded width n).toList.length = width := by
  have hlen := (Nat.length_toDigits_le_iff (b := 10) (by decide) hw).mpr hn
  rw [toList_padded, List.length_append, List.length_replicate, Nat.sub_add_cancel hlen]

namespace Text

theorem trimLeft_padded (width n : Nat) (rest : List Char) :
    trimLeft ((padded width n).toList ++ rest) = (padded width n).toList ++ rest :=
  trimLeft_append_of_ne_nil (fun _ hc => isBlank_of_isDigit (isDigit_of_mem_padded hc))
    (padded_ne_nil width n) rest

end Text

namespace Calendar

open Text (trimLeft trimLeft_cons trimLeft_padded)

/-- Digits that fill the width, or stand before no digit, are read to their end. -/
theorem digits_append {width : Nat} {ds rest : List Char} (hne : ds ≠ [])
    (hds : ∀ c ∈ ds, c.isDigit = true) (hwidth : ds.length ≤ width)
    (hrest : ds.length = width ∨ ∀ c ∈ rest.head?, c.isDigit = false) :
    digits width (ds ++ rest) = some (Nat.ofDigitChars 10 ds 0, rest) := by
  have htail : (rest.take (width - ds.length)).takeWhile Char.isDigit = [] := by
    obtain h | h := hrest
    · rw [h, Nat.sub_self, List.take_zero, List.takeWhile_nil]
    · cases rest with
      | nil => rw [List.take_nil, List.takeWhile_nil]
      | cons c rest =>
        cases width - ds.length with
        | zero => rfl
        | succ k => rw [List.take_succ_cons, List.takeWhile_cons_of_neg (by simp [h c rfl])]
  have hread : ((ds ++ rest).take width).takeWhile Char.isDigit = ds := by
    rw [List.take_append, List.take_of_length_le hwidth,
      List.takeWhile_append_of_pos hds, htail, List.append_nil]
  unfold digits
  simp only [hread, List.isEmpty_iff, hne, if_false, List.drop_left, Nat.ofDigitChars_eq_foldl]
  simp only [Nat.mul_comm 10]

theorem ofDigitChars_padded (width n : Nat) :
    Nat.ofDigitChars 10 (padded width n).toList 0 = n := by
  have hzeros : ∀ k, Nat.ofDigitChars 10 (List.replicate k '0') 0 = 0 := by
    intro k
    induction k with
    | zero => rfl
    | succ k ih => rw [List.replicate_succ, Nat.ofDigitChars_cons]; exact ih
  rw [toList_padded, Nat.ofDigitChars_append, hzeros, Nat.ofDigitChars_ten_toDigits]

/-- A number of at most `width` digits. -/
theorem digits_padded {width n : Nat} (hw : 0 < width) (hn : n < 10 ^ width) (rest : List Char) :
    digits width ((padded width n).toList ++ rest) = some (n, rest) := by
  have hlen := length_padded hw hn
  rw [digits_append (padded_ne_nil _ _) (fun _ => isDigit_of_mem_padded) hlen.le (.inl hlen),
    ofDigitChars_padded]

theorem field_padded {width n : Nat} (hw : 0 < width) (hn : n < 10 ^ width) (rest : List Char) :
    field width ((padded width n).toList ++ rest) = some (n, rest) := by
  rw [field, trimLeft_padded, digits_padded hw hn]

theorem mark_cons {c : Char} (h : Text.isBlank c = false) (spaced : Bool)
    (cs : List Char) : mark c spaced (c :: cs) = some cs := by
  cases spaced
  · simp [mark]
  · simp [mark, trimLeft_cons h]

theorem year_minus (cs : List Char) : year ('-' :: cs) =
    (digits cs.length cs).map fun (n, r) => (-(n : Int), r) := by
  unfold year
  rw [trimLeft_cons rfl]
  rfl

theorem year_plus (cs : List Char) : year ('+' :: cs) =
    (digits cs.length cs).map fun (n, r) => ((n : Int), r) := by
  unfold year
  rw [trimLeft_cons rfl]
  rfl

theorem year_of_isDigit {c : Char} (h : c.isDigit = true) (cs : List Char) :
    year (c :: cs) = (digits 4 (c :: cs)).map fun (n, r) => ((n : Int), r) := by
  unfold year
  rw [trimLeft_cons (Text.isBlank_of_isDigit h)]
  split
  · next heq => cases (List.cons.inj heq).1; cases h
  · next heq => cases (List.cons.inj heq).1; cases h
  · rfl

/-- A year is read up to what is no digit. -/
theorem year_yearText (y : Int) {rest : List Char} (hrest : ∀ c ∈ rest.head?, c.isDigit = false) :
    year ((yearText y).toList ++ rest) = some (y, rest) := by
  have hsigned : digits ((padded 4 y.natAbs).toList ++ rest).length
      ((padded 4 y.natAbs).toList ++ rest) = some (y.natAbs, rest) := by
    rw [digits_append (padded_ne_nil _ _) (fun _ => isDigit_of_mem_padded) (by simp) (.inr hrest),
      ofDigitChars_padded]
  have hminus : "-".toList = ['-'] := rfl
  have hplus : "+".toList = ['+'] := rfl
  unfold yearText
  split
  case isTrue h =>
    obtain ⟨c, cs, hcs⟩ := List.exists_cons_of_ne_nil (padded_ne_nil 4 y.toNat)
    have hc : c.isDigit = true := isDigit_of_mem_padded (hcs ▸ List.mem_cons_self)
    have hread := digits_padded (by decide : 0 < 4) (by omega : y.toNat < 10 ^ 4) rest
    rw [hcs, List.cons_append] at hread ⊢
    rw [year_of_isDigit hc, hread, Option.map_some]
    simp only [Int.toNat_of_nonneg h.1]
  case isFalse h =>
    rw [String.toList_append, List.append_assoc]
    split
    case isTrue hneg =>
      rw [hminus, List.singleton_append, year_minus, hsigned, Option.map_some]
      simp only [Int.ofNat_natAbs_of_nonpos (Int.le_of_lt hneg), Int.neg_neg]
    case isFalse hpos =>
      rw [hplus, List.singleton_append, year_plus, hsigned, Option.map_some]
      simp only [Int.natAbs_of_nonneg (Int.not_lt.mp hpos)]

theorem daysInMonth_le (y : Int) (m : Nat) : daysInMonth y m ≤ 31 := by
  unfold daysInMonth
  repeat' split
  all_goals decide

/-- A date is read as far as its text goes, and blanks after it. -/
theorem date_text (d : Date) (rest : List Char) :
    date (d.text.toList ++ rest) = some (d, trimLeft rest) := by
  obtain ⟨y, m, day, hvalid⟩ := d
  have hbounds := hvalid
  simp only [validDate, Bool.and_eq_true, decide_eq_true_eq] at hbounds
  have hmonth : m < 10 ^ 2 := by omega
  have hday : day < 10 ^ 2 := by
    have := daysInMonth_le y m
    omega
  have hhyphen : "-".toList = ['-'] := rfl
  have hyear : ∀ cs, year ((yearText y).toList ++ '-' :: cs) = some (y, '-' :: cs) :=
    fun cs => year_yearText y fun c hc => by cases hc; rfl
  simp only [Date.text, String.toList_append, List.append_assoc, hhyphen, List.cons_append,
    List.nil_append, date, hyear, Option.bind_eq_bind, Option.bind_some, mark_cons (c := '-') rfl,
    field_padded (by decide : 0 < 2) hmonth, field_padded (by decide : 0 < 2) hday, hvalid,
    dif_pos]

/-- The fraction of a second in the text of a time. -/
theorem nano_padded {width n : Nat} (hpos : 0 < width) (hle : width ≤ 9) (hn : n < 10 ^ width) :
    nano ("." ++ padded width n).toList = some (n * 10 ^ (9 - width), []) := by
  have hpoint : ("." ++ padded width n).toList = '.' :: (padded width n).toList := by
    rw [String.toList_append]
    rfl
  have hlen := length_padded hpos hn
  have hread : digits 9 ((padded width n).toList ++ []) = some (n, []) := by
    rw [digits_append (padded_ne_nil _ _) (fun _ => isDigit_of_mem_padded) (hlen.trans_le hle)
      (.inr (by simp)), ofDigitChars_padded]
  rw [List.append_nil] at hread
  simp only [hpoint, nano, hread, Option.bind_eq_bind, Option.bind_some, hlen, List.length_nil,
    Nat.sub_zero, List.dropWhile_nil, Option.pure_def, Nat.pow_eq]

theorem nano_fractionText {n : Nat} (hn : n < 1000000000) :
    nano (fractionText n).toList = some (n, []) := by
  unfold fractionText
  split
  case isTrue h =>
    rw [h]
    rfl
  split
  case isTrue h =>
    have hwidth : n / 1000000 < 10 ^ 3 := by omega
    rw [nano_padded (by decide) (by decide) hwidth]
    exact congrArg (fun k => some (k, [])) (Nat.div_mul_cancel (Nat.dvd_of_mod_eq_zero h))
  split
  case isTrue h =>
    have hwidth : n / 1000 < 10 ^ 6 := by omega
    rw [nano_padded (by decide) (by decide) hwidth]
    exact congrArg (fun k => some (k, [])) (Nat.div_mul_cancel (Nat.dvd_of_mod_eq_zero h))
  case isFalse h =>
    rw [nano_padded (by decide) (by decide) hn, Nat.sub_self, Nat.pow_zero, Nat.mul_one]

theorem time_text (t : Time) : time t.text.toList = some (t, []) := by
  obtain ⟨⟨h, hh⟩, ⟨m, hm⟩, ⟨s, hs⟩, ⟨n, hn⟩⟩ := t
  have hcolon : ":".toList = [':'] := rfl
  have hfield : ∀ k < 61, ∀ cs, field 2 ((padded 2 k).toList ++ cs) = some (k, cs) :=
    fun k hk => field_padded (by decide) (by omega)
  simp only [Time.text, String.toList_append, List.append_assoc, hcolon, List.cons_append,
    List.nil_append, time, hfield h (by omega), hfield m (by omega), hfield s hs,
    mark_cons (c := ':') rfl, nano_fractionText hn, Option.bind_eq_bind, Option.bind_some, hh, hm,
    hs, hn, and_self, dif_pos, Text.trimLeft_nil]

end Calendar

theorem Date.ofText?_text (d : Date) : Date.ofText? d.text = some d := by
  have hread := Calendar.date_text d []
  rw [List.append_nil, Text.trimLeft_nil] at hread
  rw [Date.ofText?, hread]

theorem DateTime.ofText?_iso (t : DateTime) : DateTime.ofText? t.iso = some t := by
  have hdate : Calendar.date (t.date.text.toList ++ 'T' :: t.time.text.toList) =
      some (t.date, 'T' :: t.time.text.toList) := by
    rw [Calendar.date_text, Text.trimLeft_cons rfl]
  have hiso : t.iso.toList = t.date.text.toList ++ 'T' :: t.time.text.toList := by
    simp only [DateTime.iso, String.toList_append, List.append_assoc]
    rfl
  simp only [DateTime.ofText?, hiso, hdate, Option.bind_eq_bind, Option.bind_some,
    Calendar.mark_cons (c := 'T') rfl, Calendar.time_text]

/-! ## Identifiers -/

namespace Uuid

theorem exists_of_mem_hexDigits {n v : Nat} {c : Char} (h : c ∈ hexDigits n v) :
    ∃ k < 16, c = Nat.digitChar k := by
  induction n generalizing v with
  | zero => cases h
  | succ n ih =>
    rw [hexDigits, List.mem_append, List.mem_singleton] at h
    obtain h | h := h
    · exact ih h
    · exact ⟨v % 16, Nat.mod_lt _ (by decide), h⟩

@[simp] theorem length_hexDigits (n v : Nat) : (hexDigits n v).length = n := by
  induction n generalizing v with
  | zero => rfl
  | succ n ih => rw [hexDigits, List.length_append, ih, List.length_singleton]

theorem digitValue?_digitChar {k : Nat} (h : k < 16) : digitValue? (Nat.digitChar k) = some k := by
  have hall : ∀ k : Fin 16, digitValue? (Nat.digitChar k) = some k.val := by decide
  exact hall ⟨k, h⟩

/-- The digits of a number, by value. -/
def hexValues : Nat → Nat → List Nat
  | 0, _ => []
  | n + 1, v => hexValues n (v / 16) ++ [v % 16]

theorem mapM_digitValue?_hexDigits (n v : Nat) :
    (hexDigits n v).mapM digitValue? = some (hexValues n v) := by
  induction n generalizing v with
  | zero => rfl
  | succ n ih =>
    rw [hexDigits, List.mapM_append, ih]
    simp [digitValue?_digitChar (Nat.mod_lt v (by decide : 0 < 16)), hexValues]

theorem foldl_hexValues (n v : Nat) :
    (hexValues n v).foldl (fun n d => n * 16 + d) 0 = v % 16 ^ n := by
  induction n generalizing v with
  | zero => rw [Nat.pow_zero, Nat.mod_one]; rfl
  | succ n ih =>
    rw [hexValues, List.foldl_append, ih, Nat.pow_succ, Nat.mul_comm (16 ^ n), Nat.mod_mul]
    simp only [List.foldl_cons, List.foldl_nil]
    omega

theorem ofDigits?_hexDigits (u : Uuid) : ofDigits? (hexDigits 32 u.bits.toNat) = some u := by
  have hbits : u.bits.toNat % 16 ^ 32 = u.bits.toNat := Nat.mod_eq_of_lt u.bits.isLt
  rw [ofDigits?, if_pos (length_hexDigits _ _), mapM_digitValue?_hexDigits]
  simp only [Option.bind_eq_bind, Option.bind_some, Option.pure_def, foldl_hexValues, hbits,
    BitVec.ofNat_toNat, BitVec.setWidth_eq]

/-- Five groups with hyphens between them are read as their digits. -/
theorem ofHyphenated?_groups {as bs cs ds es : List Char} (ha : as.length = 8)
    (hb : bs.length = 4) (hc : cs.length = 4) (hd : ds.length = 4) (he : es.length = 12) :
    ofHyphenated? (as ++ '-' :: bs ++ '-' :: cs ++ '-' :: ds ++ '-' :: es) =
      ofDigits? (as ++ (bs ++ (cs ++ (ds ++ es)))) := by
  simp [ofHyphenated?, ha, hb, hc, hd, he, List.getElem?_append, List.drop_append,
    List.drop_of_length_le]

theorem groups_append (ds : List Char) : ds.take 8 ++ ((ds.drop 8).take 4 ++
    ((ds.drop 12).take 4 ++ ((ds.drop 16).take 4 ++ ds.drop 20))) = ds := by
  have h12 : ds.drop 12 = (ds.drop 8).drop 4 := by rw [List.drop_drop]
  have h16 : ds.drop 16 = (ds.drop 12).drop 4 := by rw [List.drop_drop]
  have h20 : ds.drop 20 = (ds.drop 16).drop 4 := by rw [List.drop_drop]
  rw [h20, List.take_append_drop, h16, List.take_append_drop, h12, List.take_append_drop,
    List.take_append_drop]

/-- 36 characters that open no brace and start with no `u` are read with hyphens. -/
theorem ofText?_of_length {s : String} {c : Char} {cs : List Char} (hs : s.toList = c :: cs)
    (hbrace : c ≠ '{') (hu : c ≠ 'u') (hlen : (c :: cs).length = 36) :
    ofText? s = ofHyphenated? (c :: cs) := by
  have hurn : "urn:uuid:".toList.isPrefixOf (c :: cs) = false := by
    rw [show "urn:uuid:".toList = 'u' :: "rn:uuid:".toList from rfl, List.isPrefixOf_cons_cons,
      beq_eq_false_iff_ne.mpr hu.symm, Bool.false_and]
  simp only [ofText?, hs]
  split
  · next heq => exact absurd (List.cons.inj heq).1 hbrace
  · rw [hurn, hlen]
    rfl

theorem ofText?_text (u : Uuid) : ofText? u.text = some u := by
  obtain ⟨c, cs, hdigits⟩ := List.exists_cons_of_length_pos
    (show 0 < (hexDigits 32 u.bits.toNat).length by simp)
  obtain ⟨k, hk, rfl⟩ := exists_of_mem_hexDigits (hdigits ▸ List.mem_cons_self)
  have hne : ∀ k : Fin 16, Nat.digitChar k ≠ '{' ∧ Nat.digitChar k ≠ 'u' := by decide
  have htext : u.text.toList = _ := String.toList_ofList
  have hlen : u.text.toList.length = 36 := by
    rw [htext]
    simp
  obtain ⟨rest, hrest⟩ : ∃ rest, u.text.toList = Nat.digitChar k :: rest := by
    rw [htext, hdigits]
    exact ⟨_, rfl⟩
  rw [ofText?_of_length hrest (hne ⟨k, hk⟩).1 (hne ⟨k, hk⟩).2 (hrest ▸ hlen), ← hrest, htext,
    ofHyphenated?_groups (by simp) (by simp) (by simp) (by simp) (by simp), groups_append,
    ofDigits?_hexDigits]

end Uuid

end SqlTree
