import SqlTree.Proofs.Read.References

/-!
# Names with an alias

A text with one ` as ` is a name with an alias: what stands before it is read as the name, and what
stands behind it is the alias.  A text without one is read as a name alone.  A text with more is
refused, unless the ones behind the first are cut by trimming the alias, which is looked through for
another only afterwards (`Read.aliases_read_by_separators`).
-/

namespace SqlTree

namespace Text

section Pieces

variable {mark : List Char} (hmark : mark ≠ [])

/-- What is left of a mark is passed over. -/
theorem piecesFrom_eq_drop (mark : List Char) (skip : Nat) (cs : List Char) :
    piecesFrom mark skip cs = piecesFrom mark 0 (cs.drop skip) := by
  induction cs generalizing skip with
  | nil => rw [List.drop_nil, piecesFrom, piecesFrom]
  | cons c cs ih =>
    cases skip with
    | zero => rfl
    | succ skip =>
      rw [piecesFrom, ih, List.drop_succ_cons]

include hmark in
/-- The pieces of a text are what stands before the first mark, and the pieces of what stands
behind it. -/
theorem pieces_eq (cs : List Char) : pieces mark cs =
    match splitOnce? mark cs with
    | some (left, right) => left :: pieces mark right
    | none => [cs] := by
  induction cs with
  | nil => rfl
  | cons c cs ih =>
    obtain ⟨m, ms, rfl⟩ := List.exists_cons_of_ne_nil hmark
    rw [pieces, piecesFrom, splitOnce?]
    split
    · rw [piecesFrom_eq_drop]
      rfl
    · rw [← pieces, ih]
      cases splitOnce? (m :: ms) cs <;> rfl

include hmark in
/-- There is no first mark in a text exactly if there is none at all. -/
theorem splitOnce?_eq_none_iff (cs : List Char) : splitOnce? mark cs = none ↔ ¬ mark <:+: cs := by
  induction cs with
  | nil =>
    rw [List.infix_nil]
    exact ⟨fun _ => hmark, fun _ => rfl⟩
  | cons c cs ih =>
    rw [List.infix_cons_iff, not_or, ← ih, splitOnce?, ← List.isPrefixOf_iff_prefix]
    split
    · rename_i hstart
      exact ⟨nofun, fun h => absurd hstart h.1⟩
    · rename_i hstart
      cases splitOnce? mark cs with
      | none => exact ⟨fun _ => ⟨hstart, rfl⟩, fun _ => rfl⟩
      | some sides => exact ⟨nofun, fun h => nomatch h.2⟩

theorem trimChars_infix (cs : List Char) : trimChars cs <:+: cs := by
  obtain ⟨before, after, -, -, h⟩ := exists_trimChars cs
  exact ⟨before, after, by rw [List.append_assoc, ← h]⟩

end Pieces

end Text

namespace Read

/-- The mark between a name and its alias. -/
def separator : List Char := " as ".toList

/-- How often the mark stands in a text, from the left and without overlaps. -/
def separators (s : String) : Nat := (Text.pieces separator s.toList).length - 1

/-- What stands before and behind the first mark. -/
def sides? (s : String) : Option (List Char × List Char) := Text.splitOnce? separator s.toList

/-- A name with an alias, from the two sides of the first mark. -/
def Aliases (read : String → Except Error Node) (s : String) (n : Node) : Prop :=
  ∃ left right m, sides? s = some (left, right) ∧ Text.trimChars left ≠ [] ∧
    Text.trimChars right ≠ [] ∧ read (.ofList left) = .ok m ∧
    n = ⟨.aliased m ⟨.identifier (.ofList (Text.trimChars right))⟩⟩

/-- Whether no mark is left behind the first one when the alias is trimmed. -/
def AloneWhenTrimmed (s : String) : Prop :=
  ∃ left right, sides? s = some (left, right) ∧ ¬ separator <:+: Text.trimChars right

theorem separator_ne_nil : separator ≠ [] := nofun

theorem length_pieces_pos (cs : List Char) : 0 < (Text.pieces separator cs).length := by
  rw [Text.pieces_eq separator_ne_nil]
  split <;> exact Nat.succ_pos _

theorem separators_eq_zero_iff {s : String} : separators s = 0 ↔ sides? s = none := by
  rw [separators, sides?, Text.pieces_eq separator_ne_nil]
  cases Text.splitOnce? separator s.toList with
  | none => exact ⟨fun _ => rfl, fun _ => rfl⟩
  | some sides =>
    have hpos := length_pieces_pos sides.2
    refine ⟨fun h => ?_, nofun⟩
    rw [List.length_cons] at h
    omega

/-- Where the mark stands once, there is none in the alias, trimmed or not. -/
theorem aloneWhenTrimmed_of_separators {s : String} (h : separators s = 1) :
    AloneWhenTrimmed s := by
  cases hs : sides? s with
  | none =>
    rw [separators_eq_zero_iff.mpr hs] at h
    cases h
  | some sides =>
    refine ⟨sides.1, sides.2, hs, fun hinfix => ?_⟩
    have hright : Text.splitOnce? separator sides.2 ≠ none := by
      rw [ne_eq, Text.splitOnce?_eq_none_iff separator_ne_nil, not_not]
      exact hinfix.trans (Text.trimChars_infix _)
    obtain ⟨sides', hsides⟩ := Option.ne_none_iff_exists'.mp hright
    have hpos := length_pieces_pos sides'.2
    rw [sides?] at hs
    rw [separators, Text.pieces_eq separator_ne_nil, hs] at h
    simp only [Text.pieces_eq separator_ne_nil sides.2, hsides, List.length_cons] at h
    omega

theorem holds_iff (cs : List Char) : Text.holds separator cs = true ↔ separator <:+: cs := by
  rw [Text.holds, ← not_iff_not, ← Text.splitOnce?_eq_none_iff separator_ne_nil,
    Bool.not_eq_true, Option.isSome_eq_false_iff, Option.isNone_iff_eq_none]

theorem splitAlias_of_sides?_eq_none {s : String} (h : sides? s = none) :
    splitAlias s = .ok (Text.trim s, none) := by
  rw [sides?, separator] at h
  simp only [splitAlias, h]

/-- An empty side is found before a second mark, and that is looked for in the trimmed alias. -/
theorem splitAlias_of_sides? {s : String} {left right : List Char}
    (h : sides? s = some (left, right)) : splitAlias s =
      if Text.trimChars left = [] ∨ Text.trimChars right = [] then
        .error (.invalidReference s .emptyAliasSide)
      else if Text.holds separator (Text.trimChars right) then
        .error (.invalidReference s .secondAlias)
      else .ok (.ofList (Text.trimChars left), some (.ofList (Text.trimChars right))) := by
  rw [sides?, separator] at h
  simp only [splitAlias, h, Bool.or_eq_true, List.isEmpty_iff]
  rfl

section Aliasing

variable (read : String → Except Error Node)

/-- A name that may have an alias. -/
def aliasing (input : String) : Except Error Node := do
  let (left, name) ← splitAlias input
  return withAlias (← read left) name

variable {read} (htrim : ∀ {s n}, read (Text.trim s) = .ok n ↔ read s = .ok n)

theorem aliasing_of_sides?_eq_none {s : String} (h : sides? s = none) :
    aliasing read s = read (Text.trim s) := by
  rw [aliasing, splitAlias_of_sides?_eq_none h]
  show (do return withAlias (← read (Text.trim s)) none) = _
  cases read (Text.trim s) <;> rfl

include htrim in
theorem aliasing_eq_ok_iff {s : String} {left right : List Char}
    (h : sides? s = some (left, right)) {n : Node} :
    aliasing read s = .ok n ↔ Aliases read s n ∧ AloneWhenTrimmed s := by
  have haliases : Aliases read s n ↔ ∃ m, Text.trimChars left ≠ [] ∧ Text.trimChars right ≠ [] ∧
      read (.ofList left) = .ok m ∧
      n = ⟨.aliased m ⟨.identifier (.ofList (Text.trimChars right))⟩⟩ := by
    simp [Aliases, h]
  have halone : AloneWhenTrimmed s ↔
      ¬ Text.holds separator (Text.trimChars right) = true := by
    simp [AloneWhenTrimmed, h, holds_iff]
  rw [haliases, halone, aliasing, splitAlias_of_sides? h]
  by_cases hsides : Text.trimChars left = [] ∨ Text.trimChars right = []
  · rw [if_pos hsides]
    exact ⟨nofun, fun ⟨⟨_, hl, hr, _⟩, _⟩ => absurd hsides (not_or.mpr ⟨hl, hr⟩)⟩
  rw [if_neg hsides]
  by_cases hholds : Text.holds separator (Text.trimChars right) = true
  · rw [if_pos hholds]
    exact ⟨nofun, fun h => absurd hholds h.2⟩
  rw [if_neg hholds]
  obtain ⟨hl, hr⟩ := not_or.mp hsides
  have hname : String.ofList (Text.trimChars left) = Text.trim (.ofList left) := by
    rw [Text.trim, String.toList_ofList]
  constructor
  · intro hok
    obtain ⟨sides, hcut, hok⟩ := exists_of_bind_eq_ok hok
    cases hcut
    obtain ⟨m, hm, hok⟩ := exists_of_bind_eq_ok hok
    cases hok
    exact ⟨⟨m, hl, hr, htrim.mp (hname ▸ hm), rfl⟩, hholds⟩
  · rintro ⟨⟨m, -, -, hm, rfl⟩, -⟩
    show (do return withAlias (← read _) _) = _
    rw [hname, htrim.mpr hm]
    rfl

end Aliasing

theorem parts_trim (s : String) : parts (Text.trim s) = parts s := by
  rw [parts_eq, parts_eq s, Text.trim, String.toList_ofList, Text.trimChars_trimChars]

/-- What it is to read a text as a name that may have an alias: without the mark as the name alone,
with one mark as the two sides of it, and with more exactly if none is left behind the first one
when the alias is trimmed. -/
structure ReadsAliases (read aliased : String → Except Error Node) (s : String) : Prop where
  plain : separators s = 0 →
    aliased s = read (Text.trim s) ∧ ∀ n, aliased s = .ok n ↔ read s = .ok n
  one : separators s = 1 → ∀ n, aliased s = .ok n ↔ Aliases read s n
  more : 2 ≤ separators s → ∀ n, aliased s = .ok n ↔ Aliases read s n ∧ AloneWhenTrimmed s
  kind : ∀ n, aliased s = .ok n → (n.kind = .aliased ↔ separators s ≠ 0)

theorem readsAliases_aliasing {read : String → Except Error Node}
    (htrim : ∀ {s n}, read (Text.trim s) = .ok n ↔ read s = .ok n)
    (hkind : ∀ {s n}, read s = .ok n → n.kind ≠ .aliased) (s : String) :
    ReadsAliases read (aliasing read) s := by
  have hmarked : separators s ≠ 0 → ∀ n,
      (aliasing read s = .ok n ↔ Aliases read s n ∧ AloneWhenTrimmed s) := by
    intro h n
    obtain ⟨sides, hs⟩ := Option.ne_none_iff_exists'.mp (mt separators_eq_zero_iff.mpr h)
    exact aliasing_eq_ok_iff htrim hs
  have hplain : separators s = 0 → aliasing read s = read (Text.trim s) :=
    fun h => aliasing_of_sides?_eq_none (separators_eq_zero_iff.mp h)
  constructor
  · exact fun h => ⟨hplain h, fun n => by rw [hplain h, htrim]⟩
  · intro h n
    rw [hmarked (by omega)]
    exact and_iff_left (aloneWhenTrimmed_of_separators h)
  · exact fun h => hmarked (by omega)
  · intro n hok
    by_cases h : separators s = 0
    · rw [hplain h] at hok
      exact ⟨fun hk => absurd hk (hkind hok), fun hne => absurd h hne⟩
    · obtain ⟨⟨left, right, m, -, -, -, -, rfl⟩, -⟩ := (hmarked h n).mp hok
      exact ⟨fun _ => h, fun _ => rfl⟩

theorem NamesReference.kind_ne {n : Node} {ps : List String} (h : NamesReference n ps) :
    n.kind ≠ .aliased := by
  cases h with
  | column h => cases h <;> nofun
  | qualified _ _ => nofun

theorem NamesTable.kind_ne {n : Node} {ps : List String} (h : NamesTable n ps) :
    n.kind ≠ .aliased := by
  cases h <;> nofun

/-- References and tables are read with an alias by the marks in their texts. -/
theorem aliases_read_by_separators (s : String) :
    ReadsAliases reference aliasedReference s ∧ ReadsAliases table tableExpression s := by
  constructor
  · refine readsAliases_aliasing ?_ (fun h => (reference_eq_ok_iff.mp h).2.kind_ne) s
    intro s n
    rw [reference_eq_ok_iff, reference_eq_ok_iff, parts_trim]
  · refine readsAliases_aliasing ?_ (fun h => (table_eq_ok_iff.mp h).2.kind_ne) s
    intro s n
    rw [table_eq_ok_iff, table_eq_ok_iff, parts_trim]

/-- The mark stands twice in this text, at the end for the second time, and the text is read with an
alias all the same. -/
theorem aliased_with_two_separators :
    separators "a as b as " = 2 ∧
      aliasedReference "a as b as " =
        .ok ⟨.aliased ⟨.column ⟨.identifier "a"⟩⟩ ⟨.identifier "b as"⟩⟩ :=
  ⟨rfl, rfl⟩

end Read

end SqlTree
