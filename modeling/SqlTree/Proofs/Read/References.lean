import SqlTree.Proofs.Read.Names
import SqlTree.Proofs.Render.Shared
import SqlTree.Proofs.Text.Trimming
import Mathlib.Data.List.Forall2

/-!
# Names by their parts

A name is what stands between the dots of a text, each part without the blanks around it.  A text is
read as a reference exactly if it has one to three parts and none of them is empty, and as a table
exactly if it has one or two; what is read holds the parts in their order and is written from them
alone, and parts that are joined with dots are read back (`Read.names_read_by_parts`).
-/

namespace SqlTree

namespace Text

theorem splitAll_eq_splitOn (mark : Char) (cs : List Char) :
    splitAll mark cs = cs.splitOn mark := by
  induction cs with
  | nil => rfl
  | cons c cs ih =>
    rw [List.splitOn_cons_eq_if_modifyHead, ← ih, splitAll]
    by_cases h : c = mark
    · rw [if_pos h, if_pos (beq_iff_eq.mpr h)]
    · rw [if_neg h, if_neg (by rwa [beq_iff_eq])]
      cases hs : splitAll mark cs with
      | nil => exact absurd hs (splitAll_ne_nil mark cs)
      | cons p ps => rfl

section Blanks

variable {mark : Char} (hmark : isBlank mark = false) {blanks : List Char}
  (hblanks : ∀ c ∈ blanks, isBlank c = true)
include hmark hblanks

theorem map_trimChars_splitOn_before (cs : List Char) :
    ((blanks ++ cs).splitOn mark).map trimChars = (cs.splitOn mark).map trimChars := by
  induction blanks with
  | nil => rfl
  | cons b bs ih =>
    have hb := hblanks b List.mem_cons_self
    have hne : b ≠ mark := by
      rintro rfl
      rw [hmark] at hb
      cases hb
    rw [← ih fun c hc => hblanks c (List.mem_cons_of_mem b hc), List.cons_append,
      List.splitOn_cons_eq_if_modifyHead, if_neg (by rwa [beq_iff_eq])]
    cases (bs ++ cs).splitOn mark with
    | nil => rfl
    | cons p ps =>
      have hp : trimChars (b :: p) = trimChars p := by
        have h := trimChars_between (List.forall_mem_singleton.mpr hb) (List.forall_mem_nil _) p
        rwa [List.append_nil, List.singleton_append] at h
      simp only [List.modifyHead_cons, List.map_cons, hp]

/-- Blanks behind a text stand behind its last piece. -/
theorem splitOn_append_blanks (cs : List Char) :
    List.Forall₂ (fun p q => ∃ bs, (∀ c ∈ bs, isBlank c = true) ∧ p = q ++ bs)
      ((cs ++ blanks).splitOn mark) (cs.splitOn mark) := by
  induction cs with
  | nil =>
    have hmem : mark ∉ blanks := by
      intro h
      rw [hblanks mark h] at hmark
      cases hmark
    rw [List.nil_append, List.splitOn_eq_singleton hmem]
    exact .cons ⟨blanks, hblanks, rfl⟩ .nil
  | cons c cs ih =>
    rw [List.cons_append, List.splitOn_cons_eq_if_modifyHead, List.splitOn_cons_eq_if_modifyHead]
    split
    · exact .cons ⟨[], List.forall_mem_nil _, (List.append_nil _).symm⟩ ih
    · generalize (cs ++ blanks).splitOn mark = ps, cs.splitOn mark = qs at ih
      cases ih with
      | nil => exact .nil
      | cons h hs =>
        obtain ⟨bs, hbs, rfl⟩ := h
        exact .cons ⟨bs, hbs, rfl⟩ hs

theorem map_trimChars_splitOn_after (cs : List Char) :
    ((cs ++ blanks).splitOn mark).map trimChars = (cs.splitOn mark).map trimChars := by
  have h := splitOn_append_blanks hmark hblanks cs
  generalize (cs ++ blanks).splitOn mark = ps, cs.splitOn mark = qs at h
  induction h with
  | nil => rfl
  | @cons p q ps qs h _ ih =>
    obtain ⟨bs, hbs, rfl⟩ := h
    have hq := trimChars_between (List.forall_mem_nil _) hbs q
    rw [List.map_cons, List.map_cons, ih, ← hq, List.nil_append]

end Blanks

/-- The pieces of a text, without the blanks around them, are those of the trimmed text. -/
theorem map_trimChars_splitOn {mark : Char} (hmark : isBlank mark = false) (cs : List Char) :
    ((trimChars cs).splitOn mark).map trimChars = (cs.splitOn mark).map trimChars := by
  obtain ⟨before, after, hbefore, hafter, h⟩ := exists_trimChars cs
  conv => rhs; rw [h]
  rw [map_trimChars_splitOn_before hmark hbefore, map_trimChars_splitOn_after hmark hafter]

end Text

namespace Read

/-- The parts of a name: what stands between its dots, without the blanks around it. -/
def parts (s : String) : List String :=
  (s.toList.splitOn '.').map fun p => .ofList (Text.trimChars p)

/-- One part or more, at most so many, and none of them empty. -/
def IsName (most : Nat) (ps : List String) : Prop :=
  ps ≠ [] ∧ ps.length ≤ most ∧ ∀ p ∈ ps, p ≠ ""

instance (most : Nat) (ps : List String) : Decidable (IsName most ps) :=
  inferInstanceAs (Decidable (_ ∧ _ ∧ _))

/-- The columns that a name stands for: all of them if it is a star. -/
inductive NamesColumn : Node → String → Prop
  | all : NamesColumn ⟨.selectAll⟩ "*"
  | column {name : String} (h : name ≠ "*") : NamesColumn ⟨.column ⟨.identifier name⟩⟩ name

/-- A table with the parts of its name. -/
inductive NamesTable : Node → List String → Prop
  | table (name : String) :
    NamesTable ⟨.table ⟨.schemableIdentifier none ⟨.identifier name⟩⟩⟩ [name]
  | inSchema (schema name : String) :
    NamesTable ⟨.table ⟨.schemableIdentifier (some ⟨.identifier schema⟩) ⟨.identifier name⟩⟩⟩
      [schema, name]

/-- A reference with the parts of its name. -/
inductive NamesReference : Node → List String → Prop
  | column {n : Node} {name : String} (h : NamesColumn n name) : NamesReference n [name]
  | qualified {t n : Node} {ps : List String} {name : String} (ht : NamesTable t ps)
    (h : NamesColumn n name) : NamesReference ⟨.reference (some t) n⟩ (ps ++ [name])

theorem parts_ne_nil (s : String) : parts s ≠ [] :=
  mt List.map_eq_nil_iff.mp (List.splitOn_ne_nil '.' _)

theorem ofList_eq_empty_iff {cs : List Char} : String.ofList cs = "" ↔ cs = [] := by
  rw [← String.toList_inj, String.toList_ofList]
  rfl

/-- The parts of a name are those of the trimmed text. -/
theorem parts_eq (s : String) : parts s =
    (((Text.trimChars s.toList).splitOn '.').map Text.trimChars).map .ofList := by
  rw [Text.map_trimChars_splitOn rfl, List.map_map]
  rfl

theorem mem_parts_of_blank {s : String} (h : Text.trimChars s.toList = []) : "" ∈ parts s := by
  rw [parts_eq, h]
  exact List.mem_singleton_self _

theorem parts?_trimChars (s : String) :
    parts? (Text.trimChars s.toList) = if "" ∈ parts s then none else some (parts s) := by
  have hany : (((Text.trimChars s.toList).splitOn '.').map Text.trimChars).any List.isEmpty =
      decide ("" ∈ parts s) := by
    rw [Bool.eq_iff_iff, List.any_eq_true, decide_eq_true_iff, parts_eq, List.mem_map]
    simp only [List.isEmpty_iff, ofList_eq_empty_iff]
  rw [parts?, Text.splitAll_eq_splitOn]
  simp only [hany, decide_eq_true_iff, parts_eq]

theorem namesColumn_iff {n : Node} {name : String} :
    NamesColumn n name ↔ n = columnOrAll name := by
  constructor
  · intro h
    cases h with
    | all => rfl
    | column h => exact (if_neg h).symm
  · rintro rfl
    unfold columnOrAll
    split
    · rename_i h
      exact h ▸ .all
    · rename_i h
      exact .column h

theorem namesTable_iff {n : Node} (schema : Option String) {name : String} :
    NamesTable n (schema.toList ++ [name]) ↔ n = .table schema name := by
  constructor
  · intro h
    cases schema with
    | none => cases h; rfl
    | some schema => cases h; rfl
  · rintro rfl
    cases schema with
    | none => exact .table name
    | some schema => exact .inSchema schema name

theorem namesReference_column_iff {n : Node} {name : String} :
    NamesReference n [name] ↔ n = columnOrAll name := by
  rw [← namesColumn_iff]
  constructor
  · intro h
    generalize hps : [name] = ps at h
    cases h with
    | column h => cases hps; exact h
    | qualified ht h => cases ht <;> cases hps
  · exact .column

theorem namesReference_qualified_iff {n : Node} (schema : Option String)
    {table name : String} :
    NamesReference n (schema.toList ++ [table] ++ [name]) ↔
      n = ⟨.reference (some (.table schema table)) (columnOrAll name)⟩ := by
  constructor
  · intro h
    generalize hps : schema.toList ++ [table] ++ [name] = ps at h
    cases h with
    | column h =>
      have hlength := congrArg List.length hps
      simp at hlength
    | qualified ht h =>
      obtain ⟨rfl, hname⟩ := List.append_inj' hps rfl
      obtain rfl : name = _ := List.singleton_inj.mp hname
      rw [(namesTable_iff schema).mp ht, namesColumn_iff.mp h]
  · rintro rfl
    exact .qualified ((namesTable_iff schema).mpr rfl) (namesColumn_iff.mpr rfl)

theorem parts_cases (s : String) :
    ("" ∈ parts s ∧
        (Text.trimChars s.toList = [] ∨ parts? (Text.trimChars s.toList) = none)) ∨
      ((∀ p ∈ parts s, p ≠ "") ∧ Text.trimChars s.toList ≠ [] ∧
        parts? (Text.trimChars s.toList) = some (parts s)) := by
  by_cases hempty : "" ∈ parts s
  · exact .inl ⟨hempty, .inr (by rw [parts?_trimChars, if_pos hempty])⟩
  · refine .inr ⟨fun p hp h => hempty (h ▸ hp), mt mem_parts_of_blank hempty, ?_⟩
    rw [parts?_trimChars, if_neg hempty]

theorem ok_eq_ok_iff {m n : Node} {most : Nat} {ps : List String} {P : Prop}
    (hname : IsName most ps) (hP : P ↔ n = m) :
    (.ok m : Except Error Node) = .ok n ↔ IsName most ps ∧ P := by
  rw [hP]
  exact ⟨fun h => ⟨hname, (Except.ok.inj h).symm⟩, fun h => by rw [h.2]⟩

theorem not_isName_of_lt {most : Nat} {ps : List String} (h : most < ps.length) :
    ¬ IsName most ps := fun hname => absurd hname.2.1 (Nat.not_le_of_lt h)

theorem reference_eq_ok_iff {s : String} {n : Node} :
    reference s = .ok n ↔ IsName 3 (parts s) ∧ NamesReference n (parts s) := by
  have hne := parts_ne_nil s
  obtain ⟨hempty, hread⟩ | ⟨hfilled, hblank, hread⟩ := parts_cases s
  · refine ⟨fun h => ?_, fun h => absurd rfl (h.1.2.2 "" hempty)⟩
    obtain hblank | hread := hread
    · rw [reference, hblank] at h
      cases h
    · simp only [reference, hread] at h
      split at h <;> cases h
  · simp only [reference, hread, List.isEmpty_iff, if_neg hblank]
    generalize parts s = ps at hne hfilled
    match ps with
    | [] => exact absurd rfl hne
    | [c] => exact ok_eq_ok_iff ⟨hne, by simp, hfilled⟩ namesReference_column_iff
    | [t, c] =>
      exact ok_eq_ok_iff ⟨hne, by simp, hfilled⟩ (namesReference_qualified_iff none)
    | [schema, t, c] =>
      exact ok_eq_ok_iff ⟨hne, by simp, hfilled⟩
        (namesReference_qualified_iff (some schema))
    | _ :: _ :: _ :: _ :: ps => exact ⟨nofun, fun h => absurd h.1 (not_isName_of_lt (by simp))⟩

theorem table_eq_ok_iff {s : String} {n : Node} :
    table s = .ok n ↔ IsName 2 (parts s) ∧ NamesTable n (parts s) := by
  have hne := parts_ne_nil s
  obtain ⟨hempty, hread⟩ | ⟨hfilled, hblank, hread⟩ := parts_cases s
  · refine ⟨fun h => ?_, fun h => absurd rfl (h.1.2.2 "" hempty)⟩
    obtain hblank | hread := hread
    · rw [table, tableParts, hblank] at h
      cases h
    · simp only [table, tableParts, hread] at h
      split at h <;> cases h
  · simp only [table, tableParts, hread, List.isEmpty_iff, if_neg hblank]
    generalize parts s = ps at hne hfilled
    match ps with
    | [] => exact absurd rfl hne
    | [t] =>
      exact ok_eq_ok_iff ⟨hne, by simp, hfilled⟩ (namesTable_iff none)
    | [schema, t] =>
      exact ok_eq_ok_iff ⟨hne, by simp, hfilled⟩ (namesTable_iff (some schema))
    | _ :: _ :: _ :: ps => exact ⟨nofun, fun h => absurd h.1 (not_isName_of_lt (by simp))⟩

/-- Parts that are joined with dots are the parts of what they make. -/
theorem parts_intercalate {ps : List String} (hne : ps ≠ [])
    (h : ∀ p ∈ ps, Text.Trimmed p.toList ∧ '.' ∉ p.toList) : parts (".".intercalate ps) = ps := by
  have hsplit : (['.'].intercalate (ps.map String.toList)).splitOn '.' = ps.map String.toList := by
    apply List.splitOn_intercalate
    · exact List.forall_mem_map.mpr fun p hp => (h p hp).2
    · exact mt List.map_eq_nil_iff.mp hne
  have hpart : ∀ p ∈ ps, String.ofList (Text.trimChars p.toList) = p := by
    intro p hp
    rw [(h p hp).1.trimChars, String.ofList_toList]
  rw [parts, String.toList_intercalate]
  show List.map _ ((['.'].intercalate (ps.map String.toList)).splitOn '.') = ps
  rw [hsplit, List.map_map]
  exact (List.map_congr_left hpart).trans (List.map_id _)

theorem NamesTable.wellFormed {n : Node} {ps : List String} (h : NamesTable n ps) :
    n.wellFormed = true := by
  cases h <;> rfl

/-- The parts of a reference as a dialect writes them: a star at the end is not quoted. -/
def starred (d : Dialect) : List String → List String
  | [] => []
  | [name] => [if name = "*" then "*" else d.quote name]
  | p :: ps => d.quote p :: starred d ps

theorem compile_of_namesTable (d : Dialect) {n : Node} {ps : List String} (h : NamesTable n ps) :
    n.compile d = .ok ⟨n, ".".intercalate (ps.map d.quote), []⟩ := by
  cases h with
  | table name => exact Node.compile_of_pieces d [.name name] rfl (of_decide_eq_true rfl) rfl
  | inSchema schema name =>
    exact Node.compile_of_pieces d [.name schema, .text ".", .name name] rfl
      (of_decide_eq_true rfl) rfl

theorem starred_concat (d : Dialect) (ps : List String) (name : String) :
    starred d (ps ++ [name]) = ps.map d.quote ++ [if name = "*" then "*" else d.quote name] := by
  induction ps with
  | nil => rfl
  | cons p ps ih =>
    rw [List.cons_append, starred, ih]
    · rfl
    · simp

theorem compile_of_namesReference (d : Dialect) {n : Node} {ps : List String}
    (h : NamesReference n ps) : n.compile d = .ok ⟨n, ".".intercalate (starred d ps), []⟩ := by
  cases h with
  | column h =>
    cases h with
    | all => exact Node.compile_of_pieces d [.text "*"] rfl (of_decide_eq_true rfl) rfl
    | column h =>
      rename_i name
      rw [starred, if_neg h]
      exact Node.compile_of_pieces d [.name name] rfl (of_decide_eq_true rfl) rfl
  | qualified ht h =>
    rw [starred_concat]
    cases h with
    | all =>
      cases ht with
      | table t =>
        exact Node.compile_of_pieces d [.name t, .text ".", .text "*"] rfl
          (of_decide_eq_true rfl) rfl
      | inSchema schema t =>
        exact Node.compile_of_pieces d [.name schema, .text ".", .name t, .text ".", .text "*"] rfl
          (of_decide_eq_true rfl) rfl
    | column h =>
      rename_i name
      rw [if_neg h]
      cases ht with
      | table t =>
        exact Node.compile_of_pieces d [.name t, .text ".", .name name] rfl
          (of_decide_eq_true rfl) rfl
      | inSchema schema t =>
        exact Node.compile_of_pieces d [.name schema, .text ".", .name t, .text ".", .name name]
          rfl (of_decide_eq_true rfl) rfl

theorem exists_namesTable {ps : List String} (h : IsName 2 ps) : ∃ n, NamesTable n ps := by
  match ps with
  | [] => exact absurd rfl h.1
  | [t] => exact ⟨_, .table t⟩
  | [schema, t] => exact ⟨_, .inSchema schema t⟩
  | _ :: _ :: _ :: ps => exact absurd h (not_isName_of_lt (by simp))

theorem exists_namesReference {ps : List String} (h : IsName 3 ps) : ∃ n, NamesReference n ps := by
  match ps with
  | [] => exact absurd rfl h.1
  | [c] => exact ⟨_, .column (namesColumn_iff.mpr rfl)⟩
  | [t, c] => exact ⟨_, .qualified (.table t) (namesColumn_iff.mpr rfl)⟩
  | [schema, t, c] => exact ⟨_, .qualified (.inSchema schema t) (namesColumn_iff.mpr rfl)⟩
  | _ :: _ :: _ :: _ :: ps => exact absurd h (not_isName_of_lt (by simp))

theorem NamesTable.parts_eq {n : Node} {ps qs : List String} (h : NamesTable n ps)
    (h' : NamesTable n qs) : ps = qs := by
  cases h <;> cases h' <;> rfl

theorem NamesColumn.name_eq {n : Node} {c e : String} (h : NamesColumn n c)
    (h' : NamesColumn n e) : c = e := by
  cases h <;> cases h' <;> rfl

theorem NamesReference.parts_eq {n : Node} {ps qs : List String} (h : NamesReference n ps)
    (h' : NamesReference n qs) : ps = qs := by
  cases h with
  | column h =>
    cases h' with
    | column h' => rw [h.name_eq h']
    | qualified _ _ => cases h
  | qualified ht h =>
    cases h' with
    | column h' => cases h'
    | qualified ht' h' => rw [ht.parts_eq ht', h.name_eq h']

/-- What it is to read names of at most so many parts: of all texts exactly the names are read, what
is read holds their parts and no others, a statement of it is written from them, and whatever
characters parts are made of, they are read back when they are joined. -/
structure ReadsNames (read : String → Except Error Node) (most : Nat)
    (Holds : Node → List String → Prop) (written : Dialect → List String → List String) : Prop where
  accepts : ∀ s, (∃ n, read s = .ok n) ↔ IsName most (parts s)
  holds : ∀ s n, read s = .ok n → ∀ ps, Holds n ps ↔ ps = parts s
  compiles : ∀ s n, read s = .ok n → ∀ d : Dialect,
    n.compile d = .ok ⟨n, ".".intercalate (written d (parts s)), []⟩
  readsBack : ∀ ps, IsName most ps → (∀ p ∈ ps, Text.Trimmed p.toList ∧ '.' ∉ p.toList) →
    ∃ n, read (".".intercalate ps) = .ok n ∧ ∀ qs, Holds n qs ↔ qs = ps

theorem ReadsNames.of_iff {read : String → Except Error Node} {most : Nat}
    {Holds : Node → List String → Prop} {written : Dialect → List String → List String}
    (hread : ∀ {s n}, read s = .ok n ↔ IsName most (parts s) ∧ Holds n (parts s))
    (hexists : ∀ {ps}, IsName most ps → ∃ n, Holds n ps)
    (hsole : ∀ {n ps qs}, Holds n ps → Holds n qs → ps = qs)
    (hcompile : ∀ (d : Dialect) {n ps}, Holds n ps →
      n.compile d = .ok ⟨n, ".".intercalate (written d ps), []⟩) :
    ReadsNames read most Holds written := by
  have hiff : ∀ {n ps}, Holds n ps → ∀ qs, Holds n qs ↔ qs = ps :=
    fun h qs => ⟨fun h' => hsole h' h, fun heq => heq ▸ h⟩
  constructor
  · intro s
    constructor
    · rintro ⟨n, h⟩
      exact (hread.mp h).1
    · intro h
      obtain ⟨n, hn⟩ := hexists h
      exact ⟨n, hread.mpr ⟨h, hn⟩⟩
  · exact fun s n h => hiff (hread.mp h).2
  · exact fun s n h d => hcompile d (hread.mp h).2
  · intro ps hname h
    obtain ⟨n, hn⟩ := hexists hname
    have hparts := parts_intercalate hname.1 h
    exact ⟨n, hread.mpr (by rw [hparts]; exact ⟨hname, hn⟩), hiff hn⟩

/-- References and tables are read by their parts: one to three for a reference, whose last part may
be a star, and one or two for a table. -/
theorem names_read_by_parts :
    ReadsNames reference 3 NamesReference starred ∧
      ReadsNames table 2 NamesTable fun d ps => ps.map d.quote :=
  ⟨.of_iff reference_eq_ok_iff exists_namesReference NamesReference.parts_eq
      compile_of_namesReference,
    .of_iff table_eq_ok_iff exists_namesTable NamesTable.parts_eq compile_of_namesTable⟩

example : reference " s .\tt. *" = .ok ⟨.reference
    (some ⟨.table ⟨.schemableIdentifier (some ⟨.identifier "s"⟩) ⟨.identifier "t"⟩⟩⟩)
    ⟨.selectAll⟩⟩ := rfl

end Read

end SqlTree
