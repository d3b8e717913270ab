import SqlTree.Text.Split
import Mathlib.Data.List.TakeWhile

/-!
# Trimmed texts

A text is trimmed to what stands between the blanks at its two ends (`Text.exists_trimChars`), which
has no blank at an end (`Text.trimmed_trimChars`) and does not depend on how many blanks there are
(`Text.trimChars_between`).
-/

namespace SqlTree.Text

theorem isBlank_of_isDigit {c : Char} (h : c.isDigit = true) : isBlank c = false := by
  simp only [Char.isDigit, Bool.and_eq_true, decide_eq_true_eq, UInt32.le_iff_toNat_le] at h
  have hc : 48 ≤ c.toNat ∧ c.toNat ≤ 57 := h
  simp only [isBlank, Bool.or_eq_false_iff, Bool.and_eq_false_iff, decide_eq_false_iff_not,
    beq_eq_false_iff_ne]
  omega

/-- A text that starts with no blank is trimmed already. -/
theorem trimLeft_cons {c : Char} (h : isBlank c = false) (cs : List Char) :
    trimLeft (c :: cs) = c :: cs :=
  List.dropWhile_cons_of_neg (by rw [h]; decide)

theorem trimLeft_append_of_ne_nil {bs : List Char} (h : ∀ c ∈ bs, isBlank c = false)
    (hne : bs ≠ []) (cs : List Char) : trimLeft (bs ++ cs) = bs ++ cs := by
  obtain ⟨b, bs, rfl⟩ := List.exists_cons_of_ne_nil hne
  exact trimLeft_cons (h b List.mem_cons_self) (bs ++ cs)

theorem trimLeft_append {bs : List Char} (h : ∀ c ∈ bs, isBlank c = true) (cs : List Char) :
    trimLeft (bs ++ cs) = trimLeft cs := List.dropWhile_append_of_pos h

theorem trimRight_append {bs : List Char} (h : ∀ c ∈ bs, isBlank c = true) (cs : List Char) :
    trimRight (cs ++ bs) = trimRight cs := by
  rw [trimRight, List.reverse_append, trimLeft_append fun c hc => h c (List.mem_reverse.mp hc),
    trimRight]

/-- A text with no blank at either end. -/
structure Trimmed (cs : List Char) : Prop where
  head : ∀ c ∈ cs.head?, isBlank c = false
  last : ∀ c ∈ cs.getLast?, isBlank c = false

theorem Trimmed.of_unblank {cs : List Char} (h : ∀ c ∈ cs, isBlank c = false) : Trimmed cs :=
  ⟨fun c hc => h c (List.mem_of_head? hc), fun c hc => h c (List.mem_of_getLast? hc)⟩

theorem trimLeft_eq_self {cs : List Char} (h : ∀ c ∈ cs.head?, isBlank c = false) :
    trimLeft cs = cs := by
  cases cs with
  | nil => rfl
  | cons c cs => exact trimLeft_cons (h c rfl) cs

theorem trimRight_eq_self {cs : List Char} (h : ∀ c ∈ cs.getLast?, isBlank c = false) :
    trimRight cs = cs := by
  rw [trimRight, trimLeft_eq_self, List.reverse_reverse]
  rwa [List.head?_reverse]

theorem Trimmed.trimChars {cs : List Char} (h : Trimmed cs) : trimChars cs = cs := by
  rw [Text.trimChars, trimLeft_eq_self h.head, trimRight_eq_self h.last]

theorem exists_trimLeft (cs : List Char) :
    ∃ before, (∀ c ∈ before, isBlank c = true) ∧ cs = before ++ trimLeft cs :=
  ⟨cs.takeWhile isBlank, fun _ => List.mem_takeWhile_imp, List.takeWhile_append_dropWhile.symm⟩

theorem exists_trimRight (cs : List Char) :
    ∃ after, (∀ c ∈ after, isBlank c = true) ∧ cs = trimRight cs ++ after := by
  obtain ⟨before, hblank, h⟩ := exists_trimLeft cs.reverse
  refine ⟨before.reverse, fun c hc => hblank c (List.mem_reverse.mp hc), ?_⟩
  rw [trimRight, ← List.reverse_append, ← h, List.reverse_reverse]

/-- A text is what it is trimmed to, between blanks. -/
theorem exists_trimChars (cs : List Char) : ∃ before after, (∀ c ∈ before, isBlank c = true) ∧
    (∀ c ∈ after, isBlank c = true) ∧ cs = before ++ (trimChars cs ++ after) := by
  obtain ⟨before, hbefore, hleft⟩ := exists_trimLeft cs
  obtain ⟨after, hafter, hright⟩ := exists_trimRight (trimLeft cs)
  exact ⟨before, after, hbefore, hafter, by rw [trimChars, ← hright, ← hleft]⟩

theorem head?_trimLeft (cs : List Char) : ∀ c ∈ (trimLeft cs).head?, isBlank c = false := by
  intro c hc
  have h := List.head?_dropWhile_not isBlank cs
  rw [show (cs.dropWhile isBlank).head? = some c from hc] at h
  exact h

theorem trimmed_trimChars (cs : List Char) : Trimmed (trimChars cs) where
  head := by
    intro c hc
    obtain ⟨after, -, h⟩ := exists_trimRight (trimLeft cs)
    -- the first character of the trimmed text is still the first one when only its end is trimmed
    refine head?_trimLeft cs c ?_
    rw [h, List.head?_append, show (trimRight (trimLeft cs)).head? = some c from hc]
    rfl
  last := by
    intro c hc
    rw [trimChars, trimRight, List.getLast?_reverse] at hc
    exact head?_trimLeft _ c hc

theorem trimChars_of_blank {cs : List Char} (h : ∀ c ∈ cs, isBlank c = true) :
    trimChars cs = [] := by
  rw [trimChars, ← List.append_nil cs, trimLeft_append h]
  rfl

/-- Blanks around a text are trimmed away with its own. -/
theorem trimChars_between {before after : List Char} (hbefore : ∀ c ∈ before, isBlank c = true)
    (hafter : ∀ c ∈ after, isBlank c = true) (cs : List Char) :
    trimChars (before ++ (cs ++ after)) = trimChars cs := by
  obtain ⟨before', after', hbefore', hafter', h⟩ := exists_trimChars cs
  have hfront : ∀ c ∈ before ++ before', isBlank c = true :=
    fun c hc => (List.mem_append.mp hc).elim (hbefore c) (hbefore' c)
  have hback : ∀ c ∈ after' ++ after, isBlank c = true :=
    fun c hc => (List.mem_append.mp hc).elim (hafter' c) (hafter c)
  have hjoin : before ++ (cs ++ after) =
      (before ++ before') ++ (trimChars cs ++ (after' ++ after)) := by
    calc before ++ (cs ++ after)
        = before ++ ((before' ++ (trimChars cs ++ after')) ++ after) := by rw [← h]
      _ = _ := by simp only [List.append_assoc]
  rw [hjoin]
  cases hcs : trimChars cs with
  | nil => exact trimChars_of_blank fun c hc => (List.mem_append.mp hc).elim (hfront c) (hback c)
  | cons c t =>
    have hc : isBlank c = false := (trimmed_trimChars cs).head c (by rw [hcs]; rfl)
    rw [trimChars, trimLeft_append hfront, List.cons_append, trimLeft_cons hc,
      ← List.cons_append, trimRight_append hback, ← hcs,
      trimRight_eq_self (trimmed_trimChars cs).last]

theorem trimChars_trimChars (cs : List Char) : trimChars (trimChars cs) = trimChars cs :=
  (trimmed_trimChars cs).trimChars

theorem trim_between_blanks {before word after : List Char}
    (hbefore : ∀ c ∈ before, isBlank c = true) (hword : ∀ c ∈ word, isBlank c = false)
    (hafter : ∀ c ∈ after, isBlank c = true) :
    trim (.ofList (before ++ (word ++ after))) = .ofList word := by
  rw [trim, String.toList_ofList, trimChars_between hbefore hafter,
    (Trimmed.of_unblank hword).trimChars]

end SqlTree.Text
