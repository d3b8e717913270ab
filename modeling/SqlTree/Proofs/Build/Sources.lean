import SqlTree.Proofs.Build.Lists
import SqlTree.Proofs.Read.Names

/-!
# Where an insert takes its rows from

Rows, a query and the defaults of the columns replace each other, so of all calls the last one that
gives a source decides what is inserted.  The names of the columns come from the last call that
gives any, and the defaults do not take them back (`InsertCall.statement_run`).
-/

namespace SqlTree

open GivenRow (namesPieces valuesPieces beforeRows afterRows part)

namespace Insert

/-- What an insert takes its rows from. -/
inductive Source where
  | rows (rows : List GivenRow)
  | query (n : Node)
  | defaults

namespace Source

def values : Source → Option Node
  | .rows rs => some (GivenRow.values rs)
  | .query n => some n
  | .defaults => none

def isDefaults : Source → Bool
  | .defaults => true
  | _ => false

def pieces (d : Dialect) : Source → List Piece
  | .rows rs => .text " " :: valuesPieces d rs
  | .query n => .text " " :: (n.rewrite d.adapt).piecesIn d (some .insertQuery)
  | .defaults => [.text " default values"]

theorem pieces_eq (d : Dialect) (s : Source) :
    Layout.clause (s.values.map (part d)) ++
      Layout.sqlIf s.isDefaults " default values" = s.pieces d := by
  cases s with
  | rows rows =>
    obtain ⟨lists, hvalues, hnodes⟩ := GivenRow.exists_values rows
    rw [values, hvalues, pieces, ← GivenRow.piecesIn_values d hnodes (some .insertQuery)]
    exact List.append_nil _
  | query n => exact List.append_nil _
  | defaults => rfl

end Source

/-- An insert with other names of columns and another source, where these are given. -/
def sourced (p : Insert Node) (names : Option (List String)) (source : Option Source) :
    Insert Node :=
  { p with
    columns := names.elim p.columns (List.map .column)
    values := source.elim p.values Source.values
    defaultValues := source.elim p.defaultValues Source.isDefaults }

theorem sourced_sourced (p : Insert Node) (ns ms : Option (List String)) (s t : Option Source) :
    (p.sourced ns s).sourced ms t = p.sourced (ms.or ns) (t.or s) := by
  cases ms <;> cases t <;> rfl

/-- An insert that has no source yet. -/
structure IsFresh (p : Insert Node) : Prop where
  columns : p.columns = []
  values : p.values = none
  defaultValues : p.defaultValues = false

theorem IsFresh.sourced {p : Insert Node} (h : p.IsFresh) (names : Option (List String))
    (source : Option Source) : p.sourced names source = { p with
      columns := (names.getD []).map .column
      values := source.bind Source.values
      defaultValues := source.elim false Source.isDefaults } := by
  rw [Insert.sourced, h.columns, h.values, h.defaultValues]
  cases names <;> cases source <;> rfl

end Insert

/-- The calls that give an insert a source or names of columns. -/
inductive InsertCall where
  | rows (rows : List GivenRow)
  | documents (documents : List Json)
  | columns (names : List String)
  | query (n : Node)
  | defaults

namespace InsertCall

open SqlTree.Insert (Source)

def apply (p : Insert Node) : InsertCall → Except Error (Insert Node)
  | .rows rs => p.ofRows rs
  | .documents js => p.ofDocuments js
  | .columns names => p.intoColumns names
  | .query n => .ok (p.ofQuery n)
  | .defaults => .ok p.ofDefaults

/-- The insert after a call, which leaves it as it was if it fails. -/
def step (p : Insert Node) (k : InsertCall) : Insert Node :=
  match k.apply p with
  | .ok q => q
  | .error _ => p

def run (p : Insert Node) (ks : List InsertCall) : Insert Node := ks.foldl step p

/-- The rows that a call gives.  It fails without a row, and if a document is no object. -/
def rows? : InsertCall → Option (List GivenRow)
  | .rows rs => (some rs).filter fun rs => !rs.isEmpty
  | .documents js => (js.mapM GivenRow.ofJson).toOption.filter fun rs => !rs.isEmpty
  | _ => none

/-- The source that a call gives, unless it fails. -/
def source? : InsertCall → Option Source
  | .query n => some (.query n)
  | .defaults => some .defaults
  | k => k.rows?.map .rows

/-- The names of columns that a call gives, unless it fails. -/
def names? : InsertCall → Option (List String)
  | .columns names => (names.mapM Read.columnName).toOption
  | k => k.rows?.map GivenRow.columns

/-- What the last of some calls gives. -/
def last? {α : Type} (give : InsertCall → Option α) (ks : List InsertCall) : Option α :=
  (ks.filterMap give).getLast?

theorem last?_cons {α : Type} (give : InsertCall → Option α) (k : InsertCall)
    (ks : List InsertCall) : last? give (k :: ks) = (last? give ks).or (give k) := by
  rw [last?, last?, List.filterMap_cons]
  cases give k with
  | none => exact Option.or_none.symm
  | some a =>
    rw [List.getLast?_cons]
    cases (ks.filterMap give).getLast? <;> rfl

theorem step_rows (p : Insert Node) (rows : List GivenRow) :
    step p (.rows rows) = p.sourced ((rows? (.rows rows)).map GivenRow.columns)
      ((rows? (.rows rows)).map .rows) := by
  cases rows with
  | nil => rfl
  | cons row rows => rfl

theorem step_documents (p : Insert Node) (js : List Json) :
    step p (.documents js) = p.sourced ((rows? (.documents js)).map GivenRow.columns)
      ((rows? (.documents js)).map .rows) := by
  rw [rows?, step, apply, Insert.ofDocuments]
  cases js.mapM GivenRow.ofJson with
  | error e => rfl
  | ok rows => exact step_rows p rows

theorem mapM_column (names : List String) :
    names.mapM Read.column = (names.mapM Read.columnName).map (List.map Node.column) := by
  induction names with
  | nil => rfl
  | cons s names ih =>
    rw [List.mapM_cons, List.mapM_cons, ih, Read.column]
    cases Read.columnName s with
    | error e => rfl
    | ok name => cases names.mapM Read.columnName <;> rfl

theorem step_columns (p : Insert Node) (names : List String) :
    step p (.columns names) = p.sourced (names? (.columns names)) none := by
  rw [names?, step, apply, Insert.intoColumns, mapM_column]
  cases names.mapM Read.columnName <;> rfl

/-- A call that gives something puts it in the place of what was there. -/
theorem step_eq (p : Insert Node) (k : InsertCall) : step p k = p.sourced k.names? k.source? := by
  cases k with
  | rows rs => exact step_rows p rs
  | documents js => exact step_documents p js
  | columns names => exact step_columns p names
  | query n => rfl
  | defaults => rfl

theorem run_eq (p : Insert Node) (ks : List InsertCall) :
    run p ks = p.sourced (last? names? ks) (last? source? ks) := by
  induction ks generalizing p with
  | nil => rfl
  | cons k ks ih =>
    -- what later calls give covers what this one gives
    rw [last?_cons, last?_cons, ← Insert.sourced_sourced, ← step_eq, ← ih]
    rfl

/-- Calls with well-formed nodes in them. -/
def WellFormed : InsertCall → Prop
  | .rows rs => ∀ row ∈ rs, ∀ x ∈ row, x.2.wellFormed = true
  | .query n => n.wellFormed = true
  | _ => True

theorem wellFormed_ofJson {j : Json} {row : GivenRow} (h : GivenRow.ofJson j = .ok row) :
    ∀ x ∈ row, x.2.wellFormed = true := by
  cases j with
  | object ms =>
    cases h
    intro x hx
    obtain ⟨m, -, rfl⟩ := List.mem_map.mp hx
    rfl
  | _ => cases h

theorem wellFormed_rows? {k : InsertCall} (h : k.WellFormed) {rs : List GivenRow}
    (hrs : k.rows? = some rs) : ∀ row ∈ rs, ∀ x ∈ row, x.2.wellFormed = true := by
  cases k with
  | rows rs' =>
    rw [rows?] at hrs
    obtain ⟨hrs, -⟩ := Option.filter_eq_some_iff.mp hrs
    cases hrs
    exact h
  | documents js =>
    rw [rows?] at hrs
    obtain ⟨hrs, -⟩ := Option.filter_eq_some_iff.mp hrs
    cases hjs : js.mapM GivenRow.ofJson with
    | error e =>
      rw [hjs] at hrs
      cases hrs
    | ok rs' =>
      rw [hjs] at hrs
      cases hrs
      exact forall_mem_of_mapM_eq_ok wellFormed_ofJson hjs
  | _ => cases hrs

theorem wellFormed_source? {k : InsertCall} (h : k.WellFormed) {s : Source}
    (hs : k.source? = some s) : ∀ n ∈ s.values, n.wellFormed = true := by
  have hrows : ∀ rs, k.rows? = some rs → ∀ n ∈ (Source.rows rs).values, n.wellFormed = true := by
    intro rs hrs n hn
    cases hn
    exact GivenRow.wellFormed_rows (wellFormed_rows? h hrs)
  cases k with
  | query n =>
    cases hs
    intro _ hn
    cases hn
    exact h
  | defaults =>
    cases hs
    nofun
  | columns names => cases hs
  | rows rs =>
    obtain ⟨rs, hrs, rfl⟩ := Option.map_eq_some_iff.mp hs
    exact hrows rs hrs
  | documents js =>
    obtain ⟨rs, hrs, rfl⟩ := Option.map_eq_some_iff.mp hs
    exact hrows rs hrs

theorem wellFormed_last? {ks : List InsertCall} (h : ∀ k ∈ ks, k.WellFormed) :
    ∀ n ∈ (last? source? ks).bind Source.values, n.wellFormed = true := by
  intro n hn
  obtain ⟨s, hs, hn⟩ := Option.bind_eq_some_iff.mp hn
  obtain ⟨k, hk, hks⟩ := List.mem_filterMap.mp (List.mem_of_getLast? hs)
  exact wellFormed_source? (h k hk) hks n hn

/-- After any calls an insert has the data of the last one that gives a source, and of no other, and
the names of the last one that gives names.  So a list of columns stands before default values
exactly if such names are left. -/
theorem statement_run (d : Dialect) {p : Insert Node} (hp : p.node.wellFormed = true)
    (hfresh : p.IsFresh) {ks : List InsertCall} (hks : ∀ k ∈ ks, k.WellFormed) :
    (run p ks).node.statement d = Piece.statement d (beforeRows d p ++
      namesPieces ((last? names? ks).getD []) ++ (last? source? ks).elim [] (Source.pieces d) ++
        afterRows d p) ∧
    ((run p ks).defaultValues = true ∧ (run p ks).columns ≠ [] ↔
      last? source? ks = some .defaults ∧ ∃ ns ≠ [], last? names? ks = some ns) := by
  rw [run_eq, hfresh.sourced]
  constructor
  · have hdata : Layout.clause (((last? source? ks).bind Source.values).map (part d)) ++
        Layout.sqlIf ((last? source? ks).elim false Source.isDefaults) " default values" =
          (last? source? ks).elim [] (Source.pieces d) := by
      cases last? source? ks with
      | none => rfl
      | some s => exact s.pieces_eq d
    rw [Insert.node, Node.statement_eq d (GivenRow.wellFormed_insert hp _ (wellFormed_last? hks) _),
      GivenRow.pieces_named, ← hdata]
    simp only [List.append_assoc]
  · have hdefaults : (last? source? ks).elim false Source.isDefaults = true ↔
        last? source? ks = some .defaults := by
      cases last? source? ks with
      | none => exact ⟨nofun, nofun⟩
      | some s => cases s <;> simp [Source.isDefaults]
    have hnames : ((last? names? ks).getD []).map Node.column ≠ [] ↔
        ∃ ns ≠ [], last? names? ks = some ns := by
      cases last? names? ks <;> simp
    exact and_congr hdefaults hnames

/-- A query, rows in its place, defaults in theirs, and a call that fails without a row. -/
theorem statement_run_mssql :
    let p : Insert Node := .begin (.table none "t") false none
    let ks : List InsertCall := [.query (.column "x"), .rows [[("a", .bound (.int 1))]], .defaults,
      .rows []]
    p.node.wellFormed = true ∧ p.IsFresh ∧ (∀ k ∈ ks, k.WellFormed) ∧
      (run p ks).node.statement .mssql = .ok ("insert into [t] ([a]) default values", []) ∧
      ((run p ks).defaultValues = true ∧ (run p ks).columns ≠ []) := by
  intro p ks
  have hp : p.node.wellFormed = true := rfl
  have hfresh : p.IsFresh := ⟨rfl, rfl, rfl⟩
  have hks : ∀ k ∈ ks, k.WellFormed := by
    intro k hk
    simp only [ks, List.mem_cons, List.not_mem_nil, or_false] at hk
    obtain rfl | rfl | rfl | rfl := hk
    · rfl
    · exact show ∀ row ∈ [[("a", Node.bound (.int 1))]], _ by decide
    · trivial
    · nofun
  obtain ⟨hstatement, hiff⟩ := statement_run .mssql hp hfresh hks
  exact ⟨hp, hfresh, hks, hstatement, hiff.mpr ⟨rfl, ["a"], nofun, rfl⟩⟩

/-- Default values take the place of rows, and the columns of the rows are left. -/
theorem not_defaults_alone :
    let p : Insert Node := .begin (.table none "t") false none
    let ks : List InsertCall := [.rows [[("a", .bound (.int 1))]], .defaults]
    (run p ks).node.statement .postgres = .ok ("insert into \"t\" (\"a\") default values", []) ∧
      ¬ ∀ ks, last? source? ks = some .defaults →
        (run p ks).node.statement .postgres = .ok ("insert into \"t\" default values", []) := by
  intro p ks
  have hrun : run p ks = { into := some (.table none "t"), columns := [.column "a"]
                           defaultValues := true } := rfl
  have hkept : (run p ks).node.statement .postgres =
      .ok ("insert into \"t\" (\"a\") default values", []) := by
    rw [hrun]
    rfl
  refine ⟨hkept, fun h => ?_⟩
  have halone := h ks rfl
  rw [hkept] at halone
  exact absurd (congrArg Prod.fst (Except.ok.inj halone)) (by decide)

end InsertCall

end SqlTree
