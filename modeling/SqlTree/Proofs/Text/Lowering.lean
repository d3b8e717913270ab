import SqlTree.Proofs.Text.Trimming
import SqlTree.Text.Lowercase

/-!
# Texts in lower case

The lower case of a text does not depend on the case of its ASCII letters, whatever other letters
stand among them, nor on the blanks around it once these are trimmed
(`Text.SameButCase.lowercase_trim`), and a text of ASCII characters without capitals is its own
lower case (`Text.lowercase_eq_self`).
-/

namespace SqlTree.Text

/-- What is true of every ASCII character can be tried. -/
theorem of_ascii {P : Char → Prop} (h : ∀ n < 128, P (.ofNat n)) {c : Char} (hc : c.toNat < 128) :
    P c :=
  Char.ofNat_toNat c ▸ h _ hc

theorem toLower_of_not_isUpper {c : Char} (h : ¬ c.isUpper = true) : c.toLower = c :=
  dif_neg fun hc => h (decide_eq_true hc)

theorem toNat_lt_of_isUpper {c : Char} (h : c.isUpper = true) : c.toNat < 128 := by
  have hle : c.toNat ≤ 'Z'.toNat := (of_decide_eq_true h).2
  exact Nat.lt_of_le_of_lt hle (by decide)

/-- Nothing that lower case depends on tells an ASCII capital from its small letter. -/
theorem toLower_alike (c : Char) :
    lowerChar c.toLower = lowerChar c ∧ (c.toLower = 'Σ' ↔ c = 'Σ') ∧
      isCased c.toLower = isCased c ∧ isCaseIgnorable c.toLower = isCaseIgnorable c ∧
      isBlank c.toLower = isBlank c := by
  by_cases h : c.isUpper = true
  · exact of_ascii (P := fun c => c.isUpper = true → lowerChar c.toLower = lowerChar c ∧
      (c.toLower = 'Σ' ↔ c = 'Σ') ∧ isCased c.toLower = isCased c ∧
      isCaseIgnorable c.toLower = isCaseIgnorable c ∧ isBlank c.toLower = isBlank c)
      (by decide +kernel) (toNat_lt_of_isUpper h) h
  · rw [toLower_of_not_isUpper h]
    exact ⟨rfl, .rfl, rfl, rfl, rfl⟩

theorem trimLeft_map_toLower (cs : List Char) :
    trimLeft (cs.map Char.toLower) = (trimLeft cs).map Char.toLower := by
  have hblank : isBlank ∘ Char.toLower = isBlank := funext fun c => (toLower_alike c).2.2.2.2
  rw [trimLeft, List.dropWhile_map, hblank, trimLeft]

theorem trimChars_map_toLower (cs : List Char) :
    trimChars (cs.map Char.toLower) = (trimChars cs).map Char.toLower := by
  rw [trimChars, trimLeft_map_toLower, trimRight, ← List.map_reverse, trimLeft_map_toLower,
    ← List.map_reverse]
  rfl

theorem meetsCased_map_toLower (cs : List Char) :
    meetsCased (cs.map Char.toLower) = meetsCased cs := by
  have hignorable : isCaseIgnorable ∘ Char.toLower = isCaseIgnorable :=
    funext fun c => (toLower_alike c).2.2.2.1
  rw [meetsCased, List.dropWhile_map, hignorable, meetsCased]
  cases cs.dropWhile isCaseIgnorable with
  | nil => rfl
  | cons c _ => exact (toLower_alike c).2.2.1

theorem lowerAfter_map_toLower (before cs : List Char) :
    lowerAfter (before.map Char.toLower) (cs.map Char.toLower) = lowerAfter before cs := by
  induction cs generalizing before with
  | nil => rfl
  | cons c cs ih =>
    obtain ⟨hlower, hsigma, -⟩ := toLower_alike c
    have hnext := ih (c :: before)
    rw [List.map_cons] at hnext
    simp only [List.map_cons, lowerAfter, hsigma, hlower, meetsCased_map_toLower, hnext]

/-- Texts that are one text but for the case of its ASCII letters and the blanks around it. -/
def SameButCase (s t : String) : Prop :=
  ∃ before after before' after' cs ds : List Char,
    (∀ c ∈ before ++ after ++ before' ++ after', isBlank c = true) ∧
      s.toList = before ++ (cs ++ after) ∧ t.toList = before' ++ (ds ++ after') ∧
      cs.map Char.toLower = ds.map Char.toLower

theorem SameButCase.lowercase_trim {s t : String} (h : SameButCase s t) :
    lowercase (trim s) = lowercase (trim t) := by
  obtain ⟨before, after, before', after', cs, ds, hblank, hs, ht, hcase⟩ := h
  simp only [List.mem_append, or_imp, forall_and] at hblank
  obtain ⟨⟨⟨hbefore, hafter⟩, hbefore'⟩, hafter'⟩ := hblank
  have htrim : (trimChars cs).map Char.toLower = (trimChars ds).map Char.toLower := by
    rw [← trimChars_map_toLower, hcase, trimChars_map_toLower]
  have hlower := congrArg (lowerAfter []) htrim
  rw [lowercase, lowercase, trim, trim, String.toList_ofList, String.toList_ofList, hs, ht,
    trimChars_between hbefore hafter, trimChars_between hbefore' hafter']
  have hcs := lowerAfter_map_toLower [] (trimChars cs)
  have hds := lowerAfter_map_toLower [] (trimChars ds)
  rw [List.map_nil] at hcs hds
  rw [← hcs, ← hds, hlower]

theorem lowerAfter_eq_self (before : List Char) {cs : List Char}
    (h : ∀ c ∈ cs, c.toNat < 128 ∧ c.isUpper = false) : lowerAfter before cs = cs := by
  induction cs generalizing before with
  | nil => rfl
  | cons c cs ih =>
    obtain ⟨hascii, hupper⟩ := h c List.mem_cons_self
    have hself : lowerChar c = [c] ∧ c ≠ 'Σ' :=
      of_ascii (P := fun c => c.isUpper = false → lowerChar c = [c] ∧ c ≠ 'Σ')
        (by decide +kernel) hascii hupper
    rw [lowerAfter, if_neg hself.2, hself.1, ih _ fun d hd => h d (List.mem_cons_of_mem _ hd)]
    rfl

theorem lowercase_eq_self {s : String} (h : ∀ c ∈ s.toList, c.toNat < 128 ∧ c.isUpper = false) :
    lowercase s = s := by
  rw [lowercase, lowerAfter_eq_self [] h, String.ofList_toList]

end SqlTree.Text
