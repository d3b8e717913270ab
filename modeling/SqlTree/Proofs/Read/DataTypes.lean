import SqlTree.Proofs.Render.Shared
import SqlTree.Proofs.Text.Lowering
import SqlTree.Read.DataType

/-!
# Data types in their normal form

What is read as a data type is written in one way: the words of a known type with single blanks,
numbers in parentheses among them, and brackets behind them.  A text in that form is read as itself,
and no other text is what a data type is written as; the case of letters and the blanks around a
text do not count (`Read.dataType_normal_form`).
-/

namespace SqlTree

namespace Read

namespace DataType

/-- A word of the characters that types are named with. -/
def IsWord (w : String) : Prop := w ≠ "" ∧ ∀ c ∈ w.toList, isWordChar c = true

section Splitting

variable {p : Char → Bool} {cs rest : List Char}

theorem takeWhile_append_stop (hcs : ∀ c ∈ cs, p c = true) (hrest : ∀ c ∈ rest.head?, p c = false) :
    (cs ++ rest).takeWhile p = cs := by
  have hstop : rest.takeWhile p = [] := by
    cases rest with
    | nil => rfl
    | cons c rest => exact List.takeWhile_cons_of_neg (by simp [hrest c rfl])
  rw [List.takeWhile_append_of_pos hcs, hstop, List.append_nil]

theorem dropWhile_append_stop (hcs : ∀ c ∈ cs, p c = true) (hrest : ∀ c ∈ rest.head?, p c = false) :
    (cs ++ rest).dropWhile p = rest := by
  rw [List.dropWhile_append_of_pos hcs]
  cases rest with
  | nil => rfl
  | cons c rest => exact List.dropWhile_cons_of_neg (by simp [hrest c rfl])

end Splitting

/-- Where words end: before no word and no blank. -/
def Stops (rest : List Char) : Prop := ∀ c ∈ rest.head?, isWordChar c = false ∧ isSpace c = false

theorem IsWord.toList_ne_nil {w : String} (hw : IsWord w) : w.toList ≠ [] :=
  fun h => hw.1 (String.toList_eq_nil_iff.mp h)

theorem word?_append {w : String} (hw : IsWord w) {rest : List Char}
    (hrest : ∀ c ∈ rest.head?, isWordChar c = false) :
    word? (w.toList ++ rest) = some (w, rest) := by
  simp only [word?, takeWhile_append_stop hw.2 hrest, dropWhile_append_stop hw.2 hrest,
    List.isEmpty_iff, if_neg hw.toList_ne_nil, String.ofList_toList]

theorem isSpace_of_isWordChar {c : Char} (h : isWordChar c = true) : isSpace c = false := by
  refine Bool.eq_false_iff.mpr fun hspace => ?_
  rw [isSpace, Bool.or_eq_true, beq_iff_eq, beq_iff_eq] at hspace
  obtain rfl | rfl := hspace <;> cases h

theorem IsWord.ne_blank {w : String} (hw : IsWord w) : ∀ c ∈ w.toList, c ≠ ' ' := by
  rintro c hc rfl
  cases hw.2 ' ' hc

/-- Words, each after a blank. -/
def spaced (ws : List String) : List Char := ws.flatMap fun w => ' ' :: w.toList

theorem spaced_cons_append (w : String) (ws : List String) (rest : List Char) :
    spaced (w :: ws) ++ rest = ' ' :: (w.toList ++ (spaced ws ++ rest)) := by
  simp only [spaced, List.flatMap_cons, List.cons_append, List.append_assoc]

theorem length_le_spaced_append (ws : List String) (rest : List Char) :
    ws.length ≤ (spaced ws ++ rest).length := by
  induction ws with
  | nil => exact Nat.zero_le _
  | cons w ws ih =>
    simp only [spaced_cons_append, List.length_cons, List.length_append] at ih ⊢
    omega

theorem head?_spaced_append {ws : List String} {rest : List Char} (hrest : Stops rest) :
    ∀ c ∈ (spaced ws ++ rest).head?, isWordChar c = false := by
  cases ws with
  | nil => exact fun c hc => (hrest c hc).1
  | cons w ws =>
    intro c hc
    cases hc
    rfl

theorem wordsAfter_stops {rest : List Char} (hrest : Stops rest) (fuel : Nat) :
    wordsAfter fuel rest = ([], rest) := by
  cases fuel with
  | zero => rfl
  | succ fuel =>
    have hblanks : ([] ++ rest).takeWhile isSpace = [] :=
      takeWhile_append_stop nofun fun c hc => (hrest c hc).2
    rw [List.nil_append] at hblanks
    rw [wordsAfter, hblanks]
    rfl

theorem wordsAfter_spaced {ws : List String} (hws : ∀ w ∈ ws, IsWord w) {rest : List Char}
    (hrest : Stops rest) {fuel : Nat} (hfuel : ws.length ≤ fuel) :
    wordsAfter fuel (spaced ws ++ rest) = (ws, rest) := by
  induction ws generalizing fuel with
  | nil => exact wordsAfter_stops hrest fuel
  | cons w ws ih =>
    obtain ⟨fuel, rfl⟩ := Nat.exists_eq_succ_of_ne_zero (Nat.ne_zero_of_lt hfuel)
    obtain ⟨hw, hws⟩ := List.forall_mem_cons.mp hws
    obtain ⟨c, cs, hcs⟩ := List.exists_cons_of_ne_nil hw.toList_ne_nil
    have hc : isSpace c = false := isSpace_of_isWordChar (hw.2 c (hcs ▸ List.mem_cons_self))
    have hdrop : (' ' :: (w.toList ++ (spaced ws ++ rest))).dropWhile isSpace =
        w.toList ++ (spaced ws ++ rest) := by
      rw [List.dropWhile_cons_of_pos rfl, hcs]
      exact List.dropWhile_cons_of_neg (by simp [hc])
    rw [spaced_cons_append, wordsAfter, List.takeWhile_cons_of_pos rfl, hdrop,
      word?_append hw (head?_spaced_append hrest)]
    simp only [ih hws (Nat.le_of_succ_le_succ hfuel), List.isEmpty_cons, Bool.false_eq_true,
      if_false]

theorem isDigit_of_mem_toString {n : Nat} {c : Char} (h : c ∈ (toString n).toList) :
    c.isDigit = true := by
  rw [Nat.toString_eq_ofList_toDigits, String.toList_ofList] at h
  exact Nat.isDigit_of_mem_toDigits (by decide) (by decide) h

theorem toList_toString_ne_nil (n : Nat) : (toString n).toList ≠ [] := by
  rw [Nat.toString_eq_ofList_toDigits, String.toList_ofList]
  exact Nat.toDigits_ne_nil

/-- A number is read to the end of its digits. -/
theorem number?_append {n : Nat} (hn : n < UInt32.size) {rest : List Char}
    (hrest : ∀ c ∈ rest.head?, c.isDigit = false) :
    number? ((toString n).toList ++ rest) = some (n, rest) := by
  have hdigits : ∀ c ∈ (toString n).toList, c.isDigit = true := fun c => isDigit_of_mem_toString
  have hvalue : (toString n).toList.foldl (fun n c => n * 10 + (c.toNat - '0'.toNat)) 0 = n := by
    have h := Nat.ofDigitChars_ten_toDigits (n := n)
    simp only [Nat.ofDigitChars_eq_foldl, Nat.mul_comm 10] at h
    rwa [Nat.toString_eq_ofList_toDigits, String.toList_ofList]
  have hsmall : ¬ UInt32.size ≤ n := Nat.not_le.mpr hn
  simp only [number?, takeWhile_append_stop hdigits hrest, dropWhile_append_stop hdigits hrest,
    hvalue, List.isEmpty_iff, toList_toString_ne_nil n, hsmall, or_self, if_false]

theorem isSpaceOrLine_of_isDigit {c : Char} (h : c.isDigit = true) : isSpaceOrLine c = false := by
  refine Bool.eq_false_iff.mpr fun hspace => ?_
  simp only [isSpaceOrLine, isSpace, Bool.or_eq_true, beq_iff_eq] at hspace
  obtain ((rfl | rfl) | rfl) | rfl := hspace <;> cases h

/-- Numbers, each after a comma, and the parenthesis behind them. -/
def listed (ns : List Nat) (rest : List Char) : List Char :=
  (ns.flatMap fun n => ',' :: ' ' :: (toString n).toList) ++ ')' :: rest

theorem listed_cons (n : Nat) (ns : List Nat) (rest : List Char) :
    listed (n :: ns) rest = ',' :: ' ' :: ((toString n).toList ++ listed ns rest) := by
  simp only [listed, List.flatMap_cons, List.cons_append, List.append_assoc]

theorem length_lt_listed (ns : List Nat) (rest : List Char) :
    ns.length < (listed ns rest).length := by
  induction ns with
  | nil => exact Nat.succ_pos _
  | cons n ns ih =>
    simp only [listed_cons, List.length_cons, List.length_append]
    omega

theorem head?_listed (ns : List Nat) (rest : List Char) :
    ∀ c ∈ (listed ns rest).head?, c.isDigit = false := by
  intro c hc
  cases ns <;> cases hc <;> rfl

theorem number?_listed {n : Nat} (hn : n < UInt32.size) (ns : List Nat) (rest : List Char) :
    number? (((toString n).toList ++ listed ns rest).dropWhile isSpaceOrLine) =
      some (n, listed ns rest) := by
  have hstay : ((toString n).toList ++ listed ns rest).dropWhile isSpaceOrLine =
      (toString n).toList ++ listed ns rest := by
    obtain ⟨c, cs, hcs⟩ := List.exists_cons_of_ne_nil (toList_toString_ne_nil n)
    have hc : isSpaceOrLine c = false :=
      isSpaceOrLine_of_isDigit (isDigit_of_mem_toString (hcs ▸ List.mem_cons_self))
    rw [hcs]
    exact List.dropWhile_cons_of_neg (by simp [hc])
  rw [hstay, number?_append hn (head?_listed ns rest)]

theorem numbersRest_listed {ns : List Nat} (hns : ∀ n ∈ ns, n < UInt32.size) {fuel : Nat}
    (hfuel : ns.length < fuel) (rest : List Char) :
    numbersRest fuel (listed ns rest) = some (ns, rest) := by
  induction ns generalizing fuel with
  | nil =>
    obtain ⟨fuel, rfl⟩ := Nat.exists_eq_succ_of_ne_zero (Nat.ne_zero_of_lt hfuel)
    rfl
  | cons n ns ih =>
    obtain ⟨fuel, rfl⟩ := Nat.exists_eq_succ_of_ne_zero (Nat.ne_zero_of_lt hfuel)
    obtain ⟨hn, hns⟩ := List.forall_mem_cons.mp hns
    have hread := number?_listed hn ns rest
    have hblank : (' ' :: ((toString n).toList ++ listed ns rest)).dropWhile isSpaceOrLine =
        ((toString n).toList ++ listed ns rest).dropWhile isSpaceOrLine :=
      List.dropWhile_cons_of_pos rfl
    rw [listed_cons, numbersRest, List.dropWhile_cons_of_neg (by decide)]
    simp only [hblank, hread, ih hns (Nat.lt_of_succ_lt_succ hfuel), Option.bind_eq_bind,
      Option.bind_some]
    rfl

theorem numbers?_listed {n : Nat} {ns : List Nat} (hns : ∀ m ∈ n :: ns, m < UInt32.size)
    (rest : List Char) :
    numbers? ('(' :: ((toString n).toList ++ listed ns rest)) = some (n :: ns, rest) := by
  obtain ⟨hn, hns⟩ := List.forall_mem_cons.mp hns
  rw [numbers?, List.dropWhile_cons_of_neg (by decide)]
  simp only [number?_listed hn ns rest, numbersRest_listed hns (length_lt_listed ns rest) rest,
    Option.bind_eq_bind, Option.bind_some]
  rfl

/-- So many pairs of brackets. -/
def bracketed (k : Nat) : List Char := (List.replicate k ['[', ']']).flatten

theorem bracketed_succ (k : Nat) : bracketed (k + 1) = '[' :: ']' :: bracketed k := by
  rw [bracketed, List.replicate_succ]
  rfl

theorem brackets?_bracketed (k : Nat) : brackets? (bracketed k) = some k := by
  induction k with
  | zero => rfl
  | succ k ih => rw [bracketed_succ, brackets?, ih, Option.map_some]

theorem stops_bracketed (k : Nat) : Stops (bracketed k) := by
  cases k with
  | zero => exact nofun
  | succ k =>
    intro c hc
    cases hc
    exact ⟨rfl, rfl⟩

theorem numbers?_bracketed (k : Nat) : numbers? (bracketed k) = none := by
  cases k <;> rfl

/-- A type without numbers is read as words and brackets. -/
theorem ofChars?_bare {w : String} {ws : List String} (hws : ∀ v ∈ w :: ws, IsWord v) (k : Nat) :
    ofChars? (w.toList ++ (spaced ws ++ bracketed k)) = some ⟨w :: ws, none, [], k⟩ := by
  obtain ⟨hw, hws⟩ := List.forall_mem_cons.mp hws
  have hstops := stops_bracketed k
  simp only [ofChars?, word?_append hw (head?_spaced_append hstops),
    wordsAfter_spaced hws hstops (length_le_spaced_append ws _), numbers?_bracketed,
    wordsAfter_stops hstops, brackets?_bracketed, Option.bind_eq_bind, Option.bind_some]
  rfl

/-- A type with numbers is read as the words before them, the numbers, and what is behind them. -/
theorem ofChars?_numbered {w : String} {ws later : List String} {n : Nat} {ns : List Nat}
    (hws : ∀ v ∈ w :: ws, IsWord v) (hlater : ∀ v ∈ later, IsWord v)
    (hns : ∀ m ∈ n :: ns, m < UInt32.size) (k : Nat) :
    ofChars? (w.toList ++ (spaced ws ++
      '(' :: ((toString n).toList ++ listed ns (spaced later ++ bracketed k)))) =
        some ⟨w :: ws, some (n :: ns), later, k⟩ := by
  obtain ⟨hw, hws⟩ := List.forall_mem_cons.mp hws
  have hparen : ∀ rest, Stops ('(' :: rest) := by
    intro rest c hc
    cases hc
    exact ⟨rfl, rfl⟩
  have hstops := stops_bracketed k
  simp only [ofChars?, word?_append hw (head?_spaced_append (hparen _)),
    wordsAfter_spaced hws (hparen _) (length_le_spaced_append ws _), numbers?_listed hns,
    wordsAfter_spaced hlater hstops (length_le_spaced_append later _), brackets?_bracketed,
    Option.bind_eq_bind, Option.bind_some]
  rfl

theorem isWord_of_word? {cs : List Char} {w : String} {rest : List Char}
    (h : word? cs = some (w, rest)) : IsWord w := by
  rw [word?] at h
  split at h
  case isTrue => cases h
  case isFalse hne =>
    cases h
    rw [List.isEmpty_iff] at hne
    refine ⟨fun h => hne (by rw [← String.toList_ofList (l := cs.takeWhile _), h]; rfl), ?_⟩
    rw [String.toList_ofList]
    exact fun c hc => List.mem_takeWhile_imp hc

theorem isWord_of_mem_wordsAfter {fuel : Nat} {cs : List Char} {w : String}
    (h : w ∈ (wordsAfter fuel cs).1) : IsWord w := by
  induction fuel generalizing cs with
  | zero => cases h
  | succ fuel ih =>
    rw [wordsAfter] at h
    split at h
    · cases h
    · split at h
      case h_1 v rest hv =>
        obtain rfl | h := List.mem_cons.mp h
        · exact isWord_of_word? hv
        · exact ih h
      case h_2 => cases h

theorem lt_of_number? {cs : List Char} {n : Nat} {rest : List Char}
    (h : number? cs = some (n, rest)) : n < UInt32.size := by
  rw [number?] at h
  split at h
  case isTrue => cases h
  case isFalse hsmall =>
    cases h
    exact Nat.not_le.mp fun hle => hsmall (.inr hle)

theorem lt_of_mem_numbersRest {fuel : Nat} {cs : List Char} {ns : List Nat} {rest : List Char}
    (h : numbersRest fuel cs = some (ns, rest)) : ∀ n ∈ ns, n < UInt32.size := by
  induction fuel generalizing cs ns rest with
  | zero => cases h
  | succ fuel ih =>
    rw [numbersRest] at h
    split at h
    case h_1 => cases h; exact nofun
    case h_2 =>
      obtain ⟨⟨n, _⟩, hn, h⟩ := Option.bind_eq_some_iff.mp h
      obtain ⟨⟨ns, _⟩, hns, h⟩ := Option.bind_eq_some_iff.mp h
      cases h
      exact List.forall_mem_cons.mpr ⟨lt_of_number? hn, ih hns⟩
    case h_3 => cases h

theorem lt_of_mem_numbers? {cs : List Char} {ns : List Nat} {rest : List Char}
    (h : numbers? cs = some (ns, rest)) : ns ≠ [] ∧ ∀ n ∈ ns, n < UInt32.size := by
  rw [numbers?] at h
  split at h
  case h_1 =>
    obtain ⟨⟨n, _⟩, hn, h⟩ := Option.bind_eq_some_iff.mp h
    obtain ⟨⟨ns, _⟩, hns, h⟩ := Option.bind_eq_some_iff.mp h
    cases h
    exact ⟨nofun, List.forall_mem_cons.mpr ⟨lt_of_number? hn, lt_of_mem_numbersRest hns⟩⟩
  case h_2 => cases h

/-- What a type is read to. -/
structure WellFormed (t : DataType) : Prop where
  words_ne_nil : t.words ≠ []
  isWord : ∀ w ∈ t.words ++ t.later, IsWord w
  numbers : ∀ ns ∈ t.numbers, ns ≠ [] ∧ ∀ n ∈ ns, n < UInt32.size

theorem wellFormed_of_ofChars? {cs : List Char} {t : DataType} (h : ofChars? cs = some t) :
    t.WellFormed := by
  obtain ⟨⟨w, rest⟩, hw, h⟩ := Option.bind_eq_some_iff.mp h
  obtain ⟨k, hk, h⟩ := Option.bind_eq_some_iff.mp h
  cases h
  refine ⟨nofun, fun v hv => ?_, fun ns hns => ?_⟩
  · obtain hv | hv := List.mem_append.mp hv
    · obtain rfl | hv := List.mem_cons.mp hv
      · exact isWord_of_word? hw
      · exact isWord_of_mem_wordsAfter hv
    · exact isWord_of_mem_wordsAfter hv
  · generalize hnumbers : numbers? (wordsAfter rest.length rest).2 = ns? at hns
    obtain _ | ⟨ms, after⟩ := ns?
    · cases hns
    · cases hns
      exact lt_of_mem_numbers? hnumbers

end DataType

open DataType

/-- Numbers in parentheses, nothing if there are none. -/
def numberList (ns : List Nat) : String :=
  if ns = [] then "" else "(" ++ ", ".intercalate (ns.map toString) ++ ")"

/-- Words that stand behind others. -/
def laterWords (ws : List String) : String := .join (ws.map (" " ++ ·))

/-- The normal form of data types: words with single blanks, numbers behind the first of them and
brackets behind them all, where the words alone are a known name. -/
def IsNormal (d : String) : Prop :=
  ∃ (base later : List String) (numbers : List Nat) (arrays : Nat),
    base ≠ [] ∧ (∀ w ∈ base ++ later, IsWord w) ∧ (∀ n ∈ numbers, n < UInt32.size) ∧
      " ".intercalate base ++ laterWords later ∈ knownTypes ∧
      d = " ".intercalate base ++ numberList numbers ++ laterWords later ++
        .join (List.replicate arrays "[]")

theorem toList_intercalate_cons (w : String) (ws : List String) :
    (" ".intercalate (w :: ws)).toList = w.toList ++ spaced ws := by
  rw [String.toList_intercalate, List.map_cons]
  induction ws generalizing w with
  | nil => rfl
  | cons v ws ih =>
    rw [List.map_cons, List.intercalate_cons_cons, ih, List.append_assoc]
    rfl

theorem toList_laterWords (ws : List String) : (laterWords ws).toList = spaced ws := by
  simp only [laterWords, String.toList_join, List.flatMap_map, String.toList_append, spaced]
  rfl

theorem toList_brackets (k : Nat) :
    (String.join (List.replicate k "[]")).toList = bracketed k := by
  rw [String.toList_join, bracketed, List.flatMap_replicate]
  rfl

theorem toList_intercalate_numbers (n : Nat) (ns : List Nat) (rest : List Char) :
    (", ".intercalate ((n :: ns).map toString)).toList ++ ')' :: rest =
      (toString n).toList ++ listed ns rest := by
  rw [String.toList_intercalate, List.map_map]
  induction ns generalizing n with
  | nil => exact congrArg (· ++ ')' :: rest) (List.append_nil (toString n).toList)
  | cons m ns ih =>
    rw [List.map_cons, List.map_cons, List.intercalate_cons_cons, ← List.map_cons,
      List.append_assoc, ih, listed_cons, List.append_assoc]
    rfl

theorem toList_numberList (n : Nat) (ns : List Nat) (rest : List Char) :
    (numberList (n :: ns)).toList ++ rest = '(' :: ((toString n).toList ++ listed ns rest) := by
  rw [numberList, if_neg (List.cons_ne_nil n ns), String.toList_append, String.toList_append,
    List.append_assoc, List.append_assoc, ← toList_intercalate_numbers]
  rfl

theorem intercalate_append {base : List String} (hne : base ≠ []) (later : List String) :
    " ".intercalate (base ++ later) = " ".intercalate base ++ laterWords later := by
  obtain ⟨w, ws, rfl⟩ := List.exists_cons_of_ne_nil hne
  rw [← String.toList_inj, List.cons_append, toList_intercalate_cons, String.toList_append,
    toList_intercalate_cons, toList_laterWords, spaced, List.flatMap_append, ← List.append_assoc]
  rfl

theorem DataType.WellFormed.isNormal {t : DataType} (h : t.WellFormed) (hknown : t.isKnown = true) :
    IsNormal t.text := by
  refine ⟨t.words, t.later, t.numbers.getD [], t.arrays, h.words_ne_nil, h.isWord, ?_, ?_, ?_⟩
  · cases hnumbers : t.numbers with
    | none => exact nofun
    | some ns => exact (h.numbers ns hnumbers).2
  · rw [← intercalate_append h.words_ne_nil]
    exact List.contains_iff_mem.mp hknown
  · rw [text]
    cases hnumbers : t.numbers with
    | none => rfl
    | some ns =>
      rw [Option.getD_some, numberList, if_neg (h.numbers ns hnumbers).1]
      rfl

/-- The characters of data types: small letters, digits, blanks, commas, parentheses, brackets. -/
def isTypeChar (c : Char) : Bool :=
  c.isLower || c.isDigit || [' ', '(', ')', ',', '[', ']'].contains c

theorem isTypeChar_of_mem_knownTypes :
    ∀ name ∈ knownTypes, ∀ c ∈ name.toList, isTypeChar c = true := by
  decide +kernel

theorem isTypeChar_of_isDigit {c : Char} (h : c.isDigit = true) : isTypeChar c = true := by
  rw [isTypeChar, h, Bool.or_true, Bool.true_or]

theorem toNat_lt_of_isTypeChar {c : Char} (h : isTypeChar c = true) : c.toNat < 128 := by
  simp only [isTypeChar, Bool.or_eq_true, List.contains_iff_mem] at h
  obtain (h | h) | h := h
  · have hle : c.toNat ≤ 'z'.toNat := of_decide_eq_true (Bool.and_eq_true_iff.mp h).2
    exact Nat.lt_of_le_of_lt hle (by decide)
  · have hle : c.toNat ≤ '9'.toNat := of_decide_eq_true (Bool.and_eq_true_iff.mp h).2
    exact Nat.lt_of_le_of_lt hle (by decide)
  · revert c
    decide

theorem isUpper_of_isTypeChar {c : Char} (h : isTypeChar c = true) : c.isUpper = false :=
  Text.of_ascii (P := fun c => isTypeChar c = true → c.isUpper = false) (by decide +kernel)
    (toNat_lt_of_isTypeChar h) h

theorem isBlank_of_isTypeChar {c : Char} (h : isTypeChar c = true) (hc : c ≠ ' ') :
    Text.isBlank c = false :=
  Text.of_ascii (P := fun c => isTypeChar c = true → c ≠ ' ' → Text.isBlank c = false)
    (by decide +kernel) (toNat_lt_of_isTypeChar h) h hc

theorem isTypeChar_of_mem_numberList {ns : List Nat} {c : Char} (h : c ∈ (numberList ns).toList) :
    isTypeChar c = true := by
  have hdigit : ∀ n : Nat, c ∈ (toString n).toList → isTypeChar c = true :=
    fun n hc => isTypeChar_of_isDigit (isDigit_of_mem_toString hc)
  cases ns with
  | nil => cases h
  | cons n ns =>
    rw [← List.append_nil (numberList _).toList, toList_numberList] at h
    simp only [listed, List.mem_cons, List.mem_append, List.mem_flatMap, List.not_mem_nil,
      or_false] at h
    obtain rfl | h | ⟨m, -, rfl | rfl | h⟩ | rfl := h
    · rfl
    · exact hdigit n h
    · rfl
    · rfl
    · exact hdigit m h
    · rfl

theorem mem_bracketed {k : Nat} {c : Char} (h : c ∈ bracketed k) : c = '[' ∨ c = ']' := by
  obtain ⟨cs, hcs, hc⟩ := List.mem_flatten.mp h
  rw [List.eq_of_mem_replicate hcs] at hc
  simpa using hc

/-- Texts that end with no blank. -/
def EndsBare (cs : List Char) : Prop := ∀ c ∈ cs.getLast?, c ≠ ' '

theorem EndsBare.append {cs ds : List Char} (hcs : EndsBare cs) (hds : EndsBare ds) :
    EndsBare (cs ++ ds) := by
  intro c hc
  rw [List.getLast?_append] at hc
  obtain h | ⟨-, h⟩ := Option.or_eq_some_iff.mp hc
  · exact hds c h
  · exact hcs c h

theorem EndsBare.of_forall {cs : List Char} (h : ∀ c ∈ cs, c ≠ ' ') : EndsBare cs :=
  fun c hc => h c (List.mem_of_getLast? hc)

theorem endsBare_spaced {ws : List String} (hws : ∀ w ∈ ws, IsWord w) : EndsBare (spaced ws) := by
  induction ws with
  | nil => exact nofun
  | cons w ws ih =>
    obtain ⟨hw, hws⟩ := List.forall_mem_cons.mp hws
    have hlast : EndsBare (' ' :: w.toList) := by
      rw [EndsBare, List.getLast?_cons_of_ne_nil hw.toList_ne_nil]
      exact EndsBare.of_forall hw.ne_blank
    exact hlast.append (ih hws)

theorem endsBare_numberList (ns : List Nat) : EndsBare (numberList ns).toList := by
  rw [numberList]
  split
  · exact nofun
  · rw [String.toList_append]
    intro c hc
    rw [List.getLast?_append] at hc
    cases hc
    decide

/-- What is written as a type is read as one that is written so. -/
theorem exists_ofChars? {base later : List String} {numbers : List Nat} (arrays : Nat)
    (hne : base ≠ []) (hwords : ∀ w ∈ base ++ later, IsWord w)
    (hnumbers : ∀ n ∈ numbers, n < UInt32.size) {d : String} (hd : d = " ".intercalate base ++ numberList numbers ++ laterWords later ++
      .join (List.replicate arrays "[]")) :
    ∃ t, ofChars? d.toList = some t ∧ t.fullName = " ".intercalate (base ++ later) ∧
      t.text = d := by
  obtain ⟨w, ws, rfl⟩ := List.exists_cons_of_ne_nil hne
  obtain _ | ⟨n, ns⟩ := numbers
  · have hbare : d =
        " ".intercalate (w :: (ws ++ later)) ++ .join (List.replicate arrays "[]") := by
      rw [hd, ← List.cons_append, intercalate_append hne, numberList, if_pos rfl,
        String.append_empty]
    refine ⟨⟨w :: (ws ++ later), none, [], arrays⟩, ?_, ?_, ?_⟩
    · rw [hbare, String.toList_append, toList_intercalate_cons, toList_brackets, List.append_assoc]
      exact ofChars?_bare hwords arrays
    · rw [fullName, List.append_nil, List.cons_append]
    · refine .trans ?_ hbare.symm
      exact congrArg (· ++ _) (String.append_empty.trans String.append_empty)
  · obtain ⟨hwords, hlater⟩ := List.forall_mem_append.mp hwords
    refine ⟨⟨w :: ws, some (n :: ns), later, arrays⟩, ?_, rfl, ?_⟩
    · simp only [hd, String.toList_append, toList_intercalate_cons, toList_laterWords,
        toList_brackets, List.append_assoc]
      rw [toList_numberList]
      exact ofChars?_numbered hwords hlater hnumbers arrays
    · rw [hd, text, numberList, if_neg (List.cons_ne_nil n ns)]
      rfl

theorem dataTypeText_eq (s : String) : dataTypeText s =
    (((ofChars? (Text.lowercase (Text.trim s)).toList).filter isKnown).map text).elim
      (.error (.invalidDataType s)) .ok := by
  delta dataTypeText
  cases ofChars? (Text.lowercase (Text.trim s)).toList with
  | none => rfl
  | some t =>
    rw [Option.filter_some]
    simp only
    split <;> rfl

namespace IsNormal

variable {d : String}

theorem isTypeChar (h : IsNormal d) : ∀ c ∈ d.toList, isTypeChar c = true := by
  obtain ⟨base, later, numbers, arrays, -, -, -, hknown, rfl⟩ := h
  have hname := isTypeChar_of_mem_knownTypes _ hknown
  simp only [String.toList_append, toList_brackets, List.mem_append, or_imp, forall_and] at hname ⊢
  refine ⟨⟨⟨hname.1, fun c => isTypeChar_of_mem_numberList⟩, hname.2⟩, fun c hc => ?_⟩
  obtain rfl | rfl := mem_bracketed hc <;> rfl

theorem trimmed (h : IsNormal d) : Text.Trimmed d.toList := by
  have hends : (∀ c ∈ d.toList.head?, c ≠ ' ') ∧ EndsBare d.toList := by
    obtain ⟨base, later, numbers, arrays, hne, hwords, -, -, rfl⟩ := h
    obtain ⟨w, ws, rfl⟩ := List.exists_cons_of_ne_nil hne
    obtain ⟨⟨hw, hws⟩, hlater⟩ :=
      (List.forall_mem_append.mp hwords).imp_left List.forall_mem_cons.mp
    simp only [String.toList_append, toList_intercalate_cons, toList_laterWords, toList_brackets]
    constructor
    · obtain ⟨c, cs, hcs⟩ := List.exists_cons_of_ne_nil hw.toList_ne_nil
      simpa [hcs] using hw.ne_blank c (hcs ▸ List.mem_cons_self)
    · have hbrackets : EndsBare (bracketed arrays) := .of_forall fun c hc => by
        obtain rfl | rfl := mem_bracketed hc <;> decide
      exact ((((EndsBare.of_forall hw.ne_blank).append (endsBare_spaced hws)).append
        (endsBare_numberList numbers)).append (endsBare_spaced hlater)).append hbrackets
  exact ⟨fun c hc => isBlank_of_isTypeChar (h.isTypeChar c (List.mem_of_head? hc)) (hends.1 c hc),
    fun c hc => isBlank_of_isTypeChar (h.isTypeChar c (List.mem_of_getLast? hc)) (hends.2 c hc)⟩

theorem lowercase_trim (h : IsNormal d) : Text.lowercase (Text.trim d) = d := by
  rw [Text.trim, h.trimmed.trimChars, String.ofList_toList]
  exact Text.lowercase_eq_self fun c hc =>
    ⟨toNat_lt_of_isTypeChar (h.isTypeChar c hc), isUpper_of_isTypeChar (h.isTypeChar c hc)⟩

/-- A type in its normal form is read as itself. -/
theorem dataTypeText (h : IsNormal d) : dataTypeText d = .ok d := by
  rw [dataTypeText_eq, h.lowercase_trim]
  obtain ⟨base, later, numbers, arrays, hne, hwords, hnumbers, hknown, hd⟩ := h
  obtain ⟨t, hread, hname, htext⟩ := exists_ofChars? arrays hne hwords hnumbers hd
  have hknown : t.isKnown = true := by
    rw [isKnown, hname, intercalate_append hne]
    exact List.contains_iff_mem.mpr hknown
  rw [hread, Option.filter_some, if_pos hknown, Option.map_some, htext, Option.elim_some]

end IsNormal

theorem dataTypeText_isNormal {s d : String} (h : dataTypeText s = .ok d) : IsNormal d := by
  rw [dataTypeText_eq] at h
  cases hread : (ofChars? (Text.lowercase (Text.trim s)).toList).filter isKnown with
  | none => rw [hread] at h; cases h
  | some t =>
    rw [hread] at h
    cases h
    obtain ⟨hread, hknown⟩ := Option.filter_eq_some_iff.mp hread
    exact (wellFormed_of_ofChars? hread).isNormal hknown

theorem dataTypeText_sameButCase {s t : String} (h : Text.SameButCase s t) :
    (dataTypeText s).toOption = (dataTypeText t).toOption := by
  rw [dataTypeText_eq, dataTypeText_eq, h.lowercase_trim]
  cases ((ofChars? (Text.lowercase (Text.trim t)).toList).filter isKnown).map text <;> rfl

theorem dataType_eq_ok_iff {s : String} {n : Node} :
    dataType s = .ok n ↔ ∃ d, dataTypeText s = .ok d ∧ n = ⟨.dataType d⟩ := by
  rw [dataType]
  cases dataTypeText s with
  | ok d => exact ⟨fun h => ⟨d, rfl, (Except.ok.inj h).symm⟩, by rintro ⟨_, ⟨⟩, rfl⟩; rfl⟩
  | error e => exact ⟨nofun, by rintro ⟨_, ⟨⟩, _⟩⟩

theorem toOption_dataType (s : String) :
    (dataType s).toOption = (dataTypeText s).toOption.map fun d => ⟨.dataType d⟩ := by
  rw [dataType]
  cases dataTypeText s <;> rfl

theorem compile_dataType (d : Dialect) (s : String) :
    (⟨.dataType s⟩ : Node).compile d = .ok ⟨⟨.dataType s⟩, s, []⟩ := by
  have hsql : Piece.sql d [.verbatim s] = s := String.empty_append
  rw [Node.compile_of_pieces d [.verbatim s] rfl (of_decide_eq_true rfl) rfl, hsql]
  rfl

/-- Data types are read in their normal form: whatever is read is in it, exactly the texts in it are
read as themselves, and texts that are the same but for the case of their letters and the blanks
around them are read alike.  A statement has the text as it is read, in which there are small
letters, digits, blanks, commas, parentheses and brackets alone. -/
theorem dataType_normal_form :
    (∀ s n, dataType s = .ok n → ∃ d, IsNormal d ∧ n = ⟨.dataType d⟩) ∧
      (∀ d, IsNormal d ↔ dataType d = .ok ⟨.dataType d⟩) ∧
      (∀ s t, Text.SameButCase s t → (dataType s).toOption = (dataType t).toOption) ∧
      ∀ d, IsNormal d → (∀ c ∈ d.toList, isTypeChar c = true) ∧
        ∀ dialect : Dialect,
          (⟨.dataType d⟩ : Node).compile dialect = .ok ⟨⟨.dataType d⟩, d, []⟩ := by
  have hnormal : ∀ {s n}, dataType s = .ok n → ∃ d, IsNormal d ∧ n = ⟨.dataType d⟩ := by
    intro s n h
    obtain ⟨d, hd, rfl⟩ := dataType_eq_ok_iff.mp h
    exact ⟨d, dataTypeText_isNormal hd, rfl⟩
  refine ⟨fun s n => hnormal, fun d => ⟨fun h => ?_, fun h => ?_⟩, fun s t h => ?_, fun d h => ?_⟩
  · exact dataType_eq_ok_iff.mpr ⟨d, h.dataTypeText, rfl⟩
  · obtain ⟨d', hd', heq⟩ := hnormal h
    cases heq
    exact hd'
  · rw [toOption_dataType, toOption_dataType, dataTypeText_sameButCase h]
  · exact ⟨h.isTypeChar, fun dialect => compile_dataType dialect d⟩

/-- Capitals, blanks and zeros that are left out, in a type with numbers among its words. -/
theorem dataType_normal_form_timestamp :
    let s := " TIMESTAMP ( 006 ) with\ttime zone[]"
    let t := "TimeStamp ( 006 ) with\ttime zone[]\n"
    let d := "timestamp(6) with time zone[]"
    dataType s = .ok ⟨.dataType d⟩ ∧ IsNormal d ∧ dataType d = .ok ⟨.dataType d⟩ ∧
      Text.SameButCase s t ∧ (dataType s).toOption = (dataType t).toOption ∧
      (∀ c ∈ d.toList, isTypeChar c = true) ∧
      (⟨.dataType d⟩ : Node).compile .oracle = .ok ⟨⟨.dataType d⟩, d, []⟩ := by
  intro s t d
  have hs : dataType s = .ok ⟨.dataType d⟩ := by
    have htext : (dataTypeText s).toOption = some d := by decide +kernel
    cases h : dataTypeText s with
    | error e =>
      rw [h] at htext
      cases htext
    | ok d' =>
      rw [h] at htext
      exact dataType_eq_ok_iff.mpr ⟨d', h, by rw [Option.some.inj htext]⟩
  have hsame : Text.SameButCase s t :=
    ⟨[' '], [], [], ['\n'], "TIMESTAMP ( 006 ) with\ttime zone[]".toList,
      "TimeStamp ( 006 ) with\ttime zone[]".toList, by decide, by decide +kernel,
      by decide +kernel, by decide +kernel⟩
  obtain ⟨hread, hnormal, hcase, hwritten⟩ := dataType_normal_form
  obtain ⟨d', hd', heq⟩ := hread s _ hs
  have hd : IsNormal d := (Shape.dataType.inj (Node.mk.inj heq)).symm ▸ hd'
  exact ⟨hs, hd, (hnormal d).mp hd, hsame, hcase s t hsame, (hwritten d hd).1,
    (hwritten d hd).2 .oracle⟩

end Read

end SqlTree
