import SqlTree.Plugin
import SqlTree.Proofs.Json.Order
import SqlTree.Proofs.Json.Parts
import SqlTree.Proofs.Text.Lowering
import Mathlib.Data.Set.Function

/-!
# Names that come back

A name in camel case is found again in its spelling in the database: an underscore is written only
where the letter behind it is to be raised again (`CamelCase.snakeChar_cases`), so what is read
after any letter is what was written after it (`CamelCase.camelRest_snakeRest`).  Names that differ
stay apart, and the entries of a row, and of objects inside its values, come back under their names
(`CamelCase.recovers`).
-/

namespace SqlTree

namespace CamelCase

open Text

/-- The characters of spellings in the database, before they are raised. -/
def isSnake (c : Char) : Bool := c == '_' || c.isLower || c.isDigit

variable (o : CamelCase)

/-- Names of letters and digits that begin with a small letter, with no two capitals in a row where
no underscore would keep them apart. -/
def IsCamel (s : String) : Prop :=
  s.toList.head?.any Char.isLower ∧ (∀ c ∈ s.toList, c.isAlphanum) ∧
    (o.underscoreBetweenUppercaseLetters = false →
      s.toList.IsChain fun c d => ¬ (c.isUpper ∧ d.isUpper))

instance : DecidablePred o.IsCamel := fun _ => inferInstanceAs (Decidable (_ ∧ _ ∧ _))

section Characters

theorem isAlphanum_iff (c : Char) :
    c.isAlphanum = true ↔ (c.isUpper = true ∨ c.isLower = true) ∨ c.isDigit = true := by
  rw [← Bool.or_eq_true, ← Bool.or_eq_true]
  rfl

theorem toNat_lt_of_isAlphanum {c : Char} (h : c.isAlphanum) : c.toNat < 128 := by
  rcases (isAlphanum_iff c).mp h with (h | h) | h
  · have hle : c.toNat ≤ 'Z'.toNat := (of_decide_eq_true h).2
    exact Nat.lt_of_le_of_lt hle (by decide)
  · have hle : c.toNat ≤ 'z'.toNat := of_decide_eq_true (Bool.and_eq_true_iff.mp h).2
    exact Nat.lt_of_le_of_lt hle (by decide)
  · have hle : c.toNat ≤ '9'.toNat := of_decide_eq_true (Bool.and_eq_true_iff.mp h).2
    exact Nat.lt_of_le_of_lt hle (by decide)

theorem toNat_lt_of_isSnake {c : Char} (h : isSnake c) : c.toNat < 128 := by
  rw [isSnake, Bool.or_assoc, Bool.or_eq_true, beq_iff_eq] at h
  rcases h with rfl | h
  · decide
  · rw [Bool.or_eq_true] at h
    exact toNat_lt_of_isAlphanum ((isAlphanum_iff c).mpr (h.imp_left .inr))

/-- A character of the database is lowered to itself after it was raised. -/
theorem raised_of_isSnake {c : Char} (h : isSnake c) :
    upperChar c = [c.toUpper] ∧ lowerChar c.toUpper = [c] ∧ c.toUpper ≠ 'Σ' ∧
      (c.toUpper == '_' || c.toUpper.isDigit || isUpper c.toUpper) = true :=
  of_ascii (P := fun c => isSnake c → upperChar c = [c.toUpper] ∧ lowerChar c.toUpper = [c] ∧
    c.toUpper ≠ 'Σ' ∧ (c.toUpper == '_' || c.toUpper.isDigit || isUpper c.toUpper) = true)
    (by decide +kernel) (toNat_lt_of_isSnake h) h

/-- A letter or digit is lowered to a character of the database, from which a capital or a digit is
raised again. -/
theorem lowered_of_isAlphanum {c : Char} (h : c.isAlphanum) :
    lowerChar c = [c.toLower] ∧ isSnake c.toLower ∧ c.toLower ≠ '_' ∧
      (c.isUpper = false → c.toLower = c) ∧
      ((c.isUpper || c.isDigit) = true → upperChar c.toLower = [c]) :=
  of_ascii (P := fun c => c.isAlphanum → lowerChar c = [c.toLower] ∧ isSnake c.toLower ∧
    c.toLower ≠ '_' ∧ (c.isUpper = false → c.toLower = c) ∧
    ((c.isUpper || c.isDigit) = true → upperChar c.toLower = [c]))
    (by decide +kernel) (toNat_lt_of_isAlphanum h) h

theorem isUpper_of_isAlphanum {c : Char} (h : c.isAlphanum) : isUpper c = c.isUpper :=
  if_pos (toNat_lt_of_isAlphanum h)

theorem isUpper_eq_false {c : Char} (h : (c.isLower || c.isDigit) = true) : c.isUpper = false :=
  of_ascii (P := fun c => (c.isLower || c.isDigit) = true → c.isUpper = false) (by decide +kernel)
    (toNat_lt_of_isSnake (by rw [isSnake, Bool.or_assoc, h, Bool.or_true])) h

end Characters

section Names

variable {o}

/-- A letter or digit is written as it is, or lowered after an underscore so that it can be raised
again. -/
theorem snakeChar_cases {prev c : Char} (last : Char) (hprev : prev.isAlphanum) (hc : c.isAlphanum)
    (hapart : o.underscoreBetweenUppercaseLetters = false → ¬ (prev.isUpper ∧ c.isUpper)) :
    (snakeChar o prev last c = [c] ∧ isSnake c ∧ c ≠ '_') ∨
      ∃ x, snakeChar o prev last c = ['_', x] ∧ isSnake x ∧ x ≠ '_' ∧ upperChar x = [c] := by
  obtain ⟨hlower, hsnake, hne, hsame, hraise⟩ := lowered_of_isAlphanum hc
  by_cases hdigit : (o.underscoreBeforeDigits && c.isDigit && !prev.isDigit && last != '_') = true
  · have hd : c.isDigit = true := by simp only [Bool.and_eq_true] at hdigit; exact hdigit.1.1.2
    refine .inr ⟨c.toLower, ?_, hsnake, hne, hraise (by rw [hd, Bool.or_true])⟩
    rw [snakeChar, if_pos hdigit, hsame (isUpper_eq_false (by rw [hd, Bool.or_true]))]
  · cases hu : c.isUpper with
    | false =>
      rw [hsame hu] at hsnake hne
      refine .inl ⟨?_, hsnake, hne⟩
      rw [snakeChar, if_neg hdigit, isUpper_of_isAlphanum hc, hu, if_neg Bool.false_ne_true]
    | true =>
      have hmark : (o.underscoreBetweenUppercaseLetters || !isUpper prev) = true := by
        rw [isUpper_of_isAlphanum hprev, Bool.or_eq_true, Bool.not_eq_true']
        by_contra! h
        exact hapart (Bool.eq_false_iff.mpr h.1) ⟨Bool.eq_true_of_not_eq_false h.2, hu⟩
      refine .inr ⟨c.toLower, ?_, hsnake, hne, hraise (by rw [hu, Bool.true_or])⟩
      rw [snakeChar, if_neg hdigit, isUpper_of_isAlphanum hc, if_pos hu, if_pos hmark, hlower]
      rfl

/-- What is written after a letter or digit is read as what it was written for. -/
theorem camelRest_snakeRest {prev last : Char} {cs : List Char} (hlast : last ≠ '_')
    (halphanum : ∀ c ∈ prev :: cs, c.isAlphanum)
    (hapart : o.underscoreBetweenUppercaseLetters = false →
      (prev :: cs).IsChain fun c d => ¬ (c.isUpper ∧ d.isUpper)) :
    camelRest last (snakeRest o prev last cs) = cs ∧ ∀ c ∈ snakeRest o prev last cs, isSnake c := by
  induction cs generalizing prev last with
  | nil => exact ⟨rfl, nofun⟩
  | cons c cs ih =>
    have hcs := fun d hd => halphanum d (List.mem_cons_of_mem _ hd)
    have htail := fun h => (List.isChain_cons_cons.mp (hapart h)).2
    obtain ⟨hw, hsnake, hne⟩ | ⟨x, hw, hsnake, hne, hraise⟩ :=
      snakeChar_cases last (halphanum _ List.mem_cons_self) (hcs c List.mem_cons_self)
        fun h => (List.isChain_cons_cons.mp (hapart h)).1
    · obtain ⟨hread, hall⟩ := ih hne hcs htail
      simp only [snakeRest, hw, List.getLastD_cons, List.getLastD_nil, List.singleton_append,
        camelRest, if_neg hne, if_neg hlast, hread, List.forall_mem_cons]
      exact ⟨trivial, hsnake, hall⟩
    · obtain ⟨hread, hall⟩ := ih hne hcs htail
      simp only [snakeRest, hw, List.getLastD_cons, List.getLastD_nil, List.cons_append,
        List.nil_append, camelRest, if_neg hne, if_true, hraise, hread, List.forall_mem_cons]
      exact ⟨trivial, rfl, hsnake, hall⟩

/-- A name is read back from the characters that are written for it, all of which are lower case. -/
theorem camelChars_snakeChars {s : String} (h : o.IsCamel s) :
    camelChars (snakeChars o s.toList) = s.toList ∧ ∀ c ∈ snakeChars o s.toList, isSnake c := by
  obtain ⟨hhead, halphanum, hapart⟩ := h
  generalize s.toList = cs at *
  cases cs with
  | nil => cases hhead
  | cons c cs =>
    have hsmall : c.isUpper = false :=
      isUpper_eq_false (by rw [show c.isLower = true from hhead, Bool.true_or])
    obtain ⟨hlower, hsnake, hne, hsame, -⟩ := lowered_of_isAlphanum (halphanum c List.mem_cons_self)
    rw [hsame hsmall] at hlower hsnake hne
    obtain ⟨hread, hall⟩ := camelRest_snakeRest hne halphanum hapart
    rw [snakeChars, hlower, List.getLastD_cons, List.getLastD_nil, List.singleton_append,
      camelChars, hread]
    exact ⟨rfl, List.forall_mem_cons.mpr ⟨hsnake, hall⟩⟩

/-- Capitals are lowered to the characters they were raised from. -/
theorem lowerAfter_flatMap_upperChar {before cs : List Char} (h : ∀ c ∈ cs, isSnake c) :
    lowerAfter before (cs.flatMap upperChar) = cs := by
  induction cs generalizing before with
  | nil => rfl
  | cons c cs ih =>
    obtain ⟨hupper, hlower, hne, -⟩ := raised_of_isSnake (h c List.mem_cons_self)
    rw [List.flatMap_cons, hupper, List.singleton_append, lowerAfter, if_neg hne, hlower,
      ih fun d hd => h d (List.mem_cons_of_mem _ hd)]
    rfl

theorem isUpperSnake_flatMap_upperChar {cs : List Char} (h : ∀ c ∈ cs, isSnake c) :
    isUpperSnake (.ofList (cs.flatMap upperChar)) = true := by
  rw [isUpperSnake, String.toList_ofList, List.all_eq_true]
  intro d hd
  obtain ⟨c, hc, hd⟩ := List.mem_flatMap.mp hd
  obtain ⟨hupper, -, -, hall⟩ := raised_of_isSnake (h c hc)
  rw [hupper, List.mem_singleton] at hd
  exact hd ▸ hall

/-- A name in camel case is read back from its spelling in the database. -/
theorem camelCase_snakeCase {s : String} (h : o.IsCamel s) :
    o.camelCase (o.snakeCase s) = s := by
  obtain ⟨hread, hsnake⟩ := camelChars_snakeChars h
  cases hu : o.upperCase with
  | false =>
    rw [camelCase, snakeCase, hu, Bool.false_and, if_neg Bool.false_ne_true,
      if_neg Bool.false_ne_true, String.toList_ofList, hread, String.ofList_toList]
  | true =>
    rw [camelCase, snakeCase, hu, if_pos rfl, isUpperSnake_flatMap_upperChar hsnake, Bool.true_and,
      if_pos rfl, lowercase, String.toList_ofList, String.toList_ofList,
      lowerAfter_flatMap_upperChar hsnake, hread, String.ofList_toList]

theorem snakeCase_injOn : Set.InjOn o.snakeCase {s | o.IsCamel s} :=
  Set.LeftInvOn.injOn fun _ h => camelCase_snakeCase h

end Names

theorem camelItems_eq_map (js : List Json) : o.camelItems js = js.map o.camelJson := by
  induction js with
  | nil => rfl
  | cons j js ih => rw [camelItems, ih, List.map_cons]

theorem camelMembers_eq_map (ms : List (String × Json)) :
    o.camelMembers ms = ms.map fun m => (o.camelCase m.1, o.camelJson m.2) := by
  induction ms with
  | nil => rfl
  | cons m ms ih => rw [camelMembers, ih, List.map_cons]

/-- Entries as the database has them, each under the spelling of a name of its own. -/
structure Spelled (names : List String) (ms : List (String × Json)) : Prop where
  keys : ms.map Prod.fst = names.map o.snakeCase
  nodup : names.Nodup
  isCamel : ∀ s ∈ names, o.IsCamel s

section Rows

variable {o} {names : List String} {ms : List (String × Json)}

/-- Entries come back under their names, each with the value that it is given. -/
theorem Spelled.perm (h : o.Spelled names ms) (g : Json → Json) :
    (Json.sortMembers (ms.map fun m => (o.camelCase m.1, g m.2))).Perm
      (names.zip (ms.map fun m => g m.2)) := by
  have hkeys : ms.map (fun m => o.camelCase m.1) = names := by
    calc ms.map (fun m => o.camelCase m.1)
        = (ms.map Prod.fst).map o.camelCase := by rw [List.map_map]; rfl
      _ = names.map fun s => o.camelCase (o.snakeCase s) := by rw [h.keys, List.map_map]; rfl
      _ = names.map id := List.map_congr_left fun s hs => camelCase_snakeCase (h.isCamel s hs)
      _ = names := List.map_id _
  rw [← hkeys, List.zip_map']
  refine Json.sortMembers_perm ?_
  rw [List.map_map]
  exact hkeys.symm ▸ h.nodup

end Rows

/-- A document with the members of every object under their names, if the keys that they had before
were spellings of names. -/
inductive Returned : Json → Json → Prop
  | leaf {j : Json} (h : j.IsLeaf) : Returned j j
  | array {js : List Json} {g : Json → Json} (h : ∀ j ∈ js, Returned j (g j)) :
    Returned (.array js) (.array (js.map g))
  | object {ms ks : List (String × Json)} {g : Json → Json} (h : ∀ m ∈ ms, Returned m.2 (g m.2))
      (hks : ∀ names, o.Spelled names ms → ks.Perm (names.zip (ms.map fun m => g m.2))) :
    Returned (.object ms) (.object ks)

theorem returned_camelJson (j : Json) : o.Returned j (o.camelJson j) := by
  induction j using Json.partsInduction with
  | leaf j h =>
    cases j with
    | array | object => exact h.elim
    | _ => exact .leaf trivial
  | array js ih =>
    rw [camelJson, camelItems_eq_map]
    exact .array ih
  | object ms ih =>
    rw [camelJson, camelMembers_eq_map]
    exact .object ih fun names h => h.perm o.camelJson

/-- Names in camel case survive the way to the database and back: each is read back from its
spelling, so no two share one, and every row of a result has its entries under their names again,
as has every object inside its values unless these are to be left as they are. -/
theorem recovers :
    (∀ s, o.IsCamel s → o.camelCase (o.snakeCase s) = s) ∧
    Set.InjOn o.snakeCase {s | o.IsCamel s} ∧
    (∀ r : QueryResult, ∃ rows, (Plugin.camelCase o).inbound r = .ok { r with rows := rows } ∧
      r.rows.Forall₂ (fun row row' => ∀ names, o.Spelled names row →
        row'.Perm (names.zip (row.map fun m =>
          if o.maintainNestedObjectKeys then m.2 else o.camelJson m.2))) rows) ∧
    ∀ j, o.Returned j (o.camelJson j) := by
  refine ⟨fun s => camelCase_snakeCase, snakeCase_injOn, fun r => ⟨_, rfl, ?_⟩,
    o.returned_camelJson⟩
  rw [List.forall₂_map_right_iff, List.forall₂_same]
  exact fun row _ names h => h.perm fun j => if o.maintainNestedObjectKeys then j else o.camelJson j

/-- A row with an object inside, of a database that spells names in capitals and sets digits
apart. -/
theorem recovers_upperCase :
    let o : CamelCase := { upperCase := true, underscoreBeforeDigits := true }
    let pet : List (String × Json) := [("PET_2_NAME", .string "Doggo")]
    let row : Row := [("FIRST_NAME", .string "Jennifer"), ("PET_INFO", .array [.object pet])]
    o.IsCamel "pet2Name" ∧ o.camelCase (o.snakeCase "pet2Name") = "pet2Name" ∧
      o.snakeCase "pet2Name" ≠ o.snakeCase "petName" ∧
      o.Spelled ["firstName", "petInfo"] row ∧ o.Spelled ["pet2Name"] pet ∧
      (∃ rows, (Plugin.camelCase o).inbound { rows := [row] } = .ok { rows := rows } ∧
        rows.Forall₂ List.Perm [[("firstName", .string "Jennifer"),
          ("petInfo", .array [.object [("pet2Name", .string "Doggo")]])]]) ∧
      o.Returned (.array [.object pet]) (.array [.object [("pet2Name", .string "Doggo")]]) := by
  intro o pet row
  obtain ⟨hback, hinj, hrows, hjson⟩ := recovers o
  have hname : o.IsCamel "pet2Name" := by decide +kernel
  have hrow : o.Spelled ["firstName", "petInfo"] row :=
    ⟨by decide +kernel, by decide, by decide +kernel⟩
  have hpet : o.Spelled ["pet2Name"] pet := ⟨by decide +kernel, by decide, by decide +kernel⟩
  have hvalue : o.camelJson (.array [.object pet]) =
      .array [.object [("pet2Name", .string "Doggo")]] := by
    have hkey : o.camelCase "PET_2_NAME" = "pet2Name" := by decide +kernel
    simp only [pet, camelJson, camelItems, camelMembers, hkey]
    rfl
  obtain ⟨rows, hin, hall⟩ := hrows { rows := [row] }
  refine ⟨hname, hback _ hname, fun h => ?_, hrow, hpet, ⟨rows, hin, ?_⟩, hvalue ▸ hjson _⟩
  · exact absurd (hinj hname (by decide +kernel) h) (by decide)
  · cases hall with
    | cons hfirst hrest =>
      cases hrest
      rw [← hvalue]
      exact .cons (hfirst _ hrow) .nil

end CamelCase

end SqlTree
