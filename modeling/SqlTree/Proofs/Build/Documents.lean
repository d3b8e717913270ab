import SqlTree.Build.Update
import SqlTree.Proofs.Build.Lists
import SqlTree.Proofs.Definition.Binding
import SqlTree.Proofs.Expression.Arithmetic
import Mathlib.Data.List.ReduceOption

/-!
# Rows given as documents

A row may be given as an object.  An insert binds its fields under the columns of all rows, an
update binds them in the order of their keys, and what is bound has the field as its plain form,
unless the field is a whole number beyond the signed ones of 64 bits: such a number is rounded to a
floating-point number (`Value.toJson_ofJson_iff`).  Below an array or another object it is kept, as
these are bound as they are.  Nothing else of a statement depends on the fields
(`Json.Members.binds_fields`).
-/

namespace SqlTree

namespace Json

/-- Documents as readers make them, at the top: numbers are finite, and whole ones have 64 bits,
with a sign or without. -/
def IsRead : Json → Prop
  | .int n => -2 ^ 63 ≤ n ∧ n < 2 ^ 64
  | .float x => x.isFinite = true
  | _ => True

/-- Whole numbers that 64 bits with a sign cannot hold, but 64 bits without one. -/
def IsBeyondInt64 : Json → Prop
  | .int n => 2 ^ 63 ≤ n
  | _ => False

instance : DecidablePred IsRead
  | .int _ => inferInstanceAs (Decidable (_ ∧ _))
  | .float _ => inferInstanceAs (Decidable (_ = true))
  | .null => .isTrue trivial
  | .bool _ => .isTrue trivial
  | .string _ => .isTrue trivial
  | .array _ => .isTrue trivial
  | .object _ => .isTrue trivial

/-- The members of an object as readers make it, in the order of their keys. -/
structure Members where
  list : List (String × Json)
  ordered : list.Pairwise (·.1 < ·.1)
  isRead : ∀ m ∈ list, m.2.IsRead

end Json

namespace Value

theorem int64?_eq_none {n : Int} (h : 2 ^ 63 ≤ n) : int64? n = none := by
  have hmax : Int64.maxValue.toInt = 2 ^ 63 - 1 := by decide
  rw [int64?, if_neg]
  omega

theorem int64?_eq_some {n : Int} (h : -2 ^ 63 ≤ n) (h' : n < 2 ^ 63) :
    int64? n = some (Int64.ofInt n) := by
  have hmin : Int64.minValue.toInt = -2 ^ 63 := by decide
  have hmax : Int64.maxValue.toInt = 2 ^ 63 - 1 := by decide
  rw [int64?, if_pos]
  omega

theorem ofJson_beyond {n : Int} (h : 2 ^ 63 ≤ n) : ofJson (.int n) = .float (floatOfInt n) := by
  rw [ofJson, int64?_eq_none h]

/-- The value made from a document has it as its plain form, but for numbers that are rounded. -/
theorem toJson_ofJson_iff {j : Json} (h : j.IsRead) :
    (ofJson j).toJson = j ↔ ¬ j.IsBeyondInt64 := by
  cases j with
  | int n =>
    by_cases hn : 2 ^ 63 ≤ n
    · -- a floating-point number is no whole one, even where nothing was rounded off
      rw [ofJson_beyond hn, toJson]
      refine iff_of_false ?_ (not_not_intro hn)
      split <;> nofun
    · have hlt : n < 2 ^ 63 := Int.not_le.mp hn
      rw [ofJson, int64?_eq_some h.1 hlt]
      exact iff_of_true (congrArg Json.int (Int64.toInt_ofInt_of_le h.1 hlt)) hn
  | float x => exact iff_of_true (if_pos h) id
  | _ => exact iff_of_true rfl id

end Value

namespace Piece

/-- The statement of pieces between others.  It fails for nothing but what the others hold, and what
the pieces bind is bound between what the others bind. -/
def statementBetween (d : Dialect) (before ps after : List Piece) (vs : List Value) :
    Except Error (String × List Value) :=
  match refusal? (before ++ after) with
  | some f => .error (.unsupported d.name f)
  | none => .ok (sql d (before ++ ps ++ after), parameters before ++ vs ++ parameters after)

theorem statement_between (d : Dialect) (before after : List Piece) {ps : List Piece}
    {vs : List Value} (hps : refusal? ps = none) (hvs : parameters ps = vs) :
    statement d (before ++ ps ++ after) = statementBetween d before ps after vs := by
  have hrefusal : refusal? (before ++ ps ++ after) = refusal? (before ++ after) := by
    rw [refusal?_append, refusal?_append, refusal?_append, hps, Option.or_none]
  have hparameters : parameters (before ++ ps ++ after) =
      parameters before ++ vs ++ parameters after := by
    rw [parameters_append, parameters_append, hvs]
  cases hr : refusal? (before ++ after) <;>
    simp only [statement, statementBetween, hrefusal, hr, hparameters]

end Piece

namespace Read

/-- Nodes that keys are read as, key by key. -/
abbrev AsReferences (keys : List String) (columns : List Node) : Prop :=
  List.Forall₂ (fun key column => reference key = .ok column) keys columns

theorem exists_asReferences {keys : List String} (h : ∀ key ∈ keys, ∃ n, reference key = .ok n) :
    ∃ columns, AsReferences keys columns := by
  induction keys with
  | nil => exact ⟨[], .nil⟩
  | cons key keys ih =>
    obtain ⟨⟨n, hn⟩, hkeys⟩ := List.forall_mem_cons.mp h
    obtain ⟨columns, hcolumns⟩ := ih hkeys
    exact ⟨n :: columns, .cons hn hcolumns⟩

theorem AsReferences.ofNames {keys : List String} {columns : List Node}
    (h : AsReferences keys columns) : ∀ c ∈ columns, c.OfNames := by
  induction h with
  | nil => exact List.forall_mem_nil _
  | cons hc _ ih => exact List.forall_mem_cons.mpr ⟨ofNames_reference hc, ih⟩

end Read

namespace Update

open Layout
open GivenRow (joined)

variable (d : Dialect) (p : Update Node)

/-- A part of an update with its pieces. -/
def part (c : Node) : Part :=
  (c.rewrite d.adapt, (c.rewrite d.adapt).piecesIn d (some .updateQuery))

/-- An update up to the values that it sets already, and these. -/
def beforeMore : List Piece :=
  leading (p.explain.map (part d)) ++ leading (p.withClause.map (part d)) ++ sql "update" ++
    clause (p.table.map (part d)) ++
    (if p.fromClause.isNone then clauses (p.joins.map (part d)) else []) ++ sql " set " ++
    joined (p.updates.map fun u => (part d u).2)

def afterMore : List Piece :=
  (if p.fromClause.isNone then []
    else clause (p.fromClause.map (part d)) ++ clauses (p.joins.map (part d))) ++
    clause (p.whereClause.map (part d)) ++ clause (p.limit.map (part d)) ++
    clause (p.returning.map (part d))

/-- Columns, each with a parameter behind it. -/
def assignments (columns : List Node) (vs : List Value) : List (List Piece) :=
  (columns.zip vs).map fun x => x.1.pieces d ++ [.text " = ", .parameter x.2]

/-- Assignments behind those that are there. -/
def morePieces (assignments : List (List Piece)) : List Piece :=
  (if p.updates.isEmpty || assignments.isEmpty then [] else [.text ", "]) ++ joined assignments

/-- Columns with values for them. -/
def assigned (columns : List Node) (vs : List Value) : List Node :=
  (columns.zip vs).map fun x => ⟨.columnUpdate x.1 (.bound x.2)⟩

theorem beforeMore_begin (schema : Option String) (name : String) :
    beforeMore d (.begin (.table schema name) none) =
      .text "update" :: .text " " :: (schema.elim [] fun s => [.name s, .text "."]) ++
        [.name name, .text " set "] := by
  show .text "update" :: (.text " " :: (part d (.table schema name)).2 ++ [] ++ sql " set ") ++
    [] = _
  rw [part, GivenRow.piecesIn_table]
  simp [sql]

/-- New values are written behind those that are set already. -/
theorem pieces_more (us : List Node) :
    (Node.rewrite d.adapt ⟨.updateQuery { p with updates := p.updates ++ us }⟩).pieces d =
      beforeMore d p ++ morePieces p (us.map fun u => (part d u).2) ++ afterMore d p := by
  rw [Node.pieces, Node.piecesIn_rewrite_adapt d (by simp [Shape.kind]) (by simp [Shape.kind])]
  show Layout.update (Update.each (part d) _) = _
  simp only [Layout.update, Update.each, beforeMore, afterMore, morePieces,
    GivenRow.commas_eq_joined, List.map_map, List.map_append, GivenRow.joined_append,
    Option.isNone_map, List.isEmpty_map, List.append_assoc, Function.comp_def]

theorem wellFormed_more {p : Update Node} (hp : p.node.wellFormed = true) {us : List Node}
    (h : ∀ u ∈ us, u.kind = .columnUpdate ∧ u.wellFormed = true) :
    Node.wellFormed ⟨.updateQuery { p with updates := p.updates ++ us }⟩ = true := by
  refine Node.wellFormed_mk_iff.mpr fun x hx => ?_
  have hcases : x ∈ (Shape.updateQuery p).slotted ∨ x ∈ us.map (Slot.only .columnUpdate, ·) := by
    simp only [Shape.slotted, Shape.fields, Update.fields, List.flatMap_cons,
      Field.slotted_children, List.map_append, List.mem_append] at hx ⊢
    tauto
  obtain h' | hx := hcases
  · exact Node.wellFormed_mk_iff.mp hp x h'
  · obtain ⟨u, hu, rfl⟩ := List.mem_map.mp hx
    exact ⟨beq_iff_eq.mpr (h u hu).1.symm, (h u hu).2⟩

section Columns

theorem part_columnUpdate {column : Node} (h : column.OfNames) (v : Value) :
    (part d ⟨.columnUpdate column (.bound v)⟩).2 =
      column.pieces d ++ [.text " = ", .parameter v] := by
  rw [part, Node.piecesIn_rewrite_adapt d (by simp [Shape.kind]) (by simp [Shape.kind])]
  show (column.rewrite d.adapt).piecesIn d (some .columnUpdate) ++ sql " = " ++
    (Node.rewrite d.adapt ⟨.value v false⟩).piecesIn d (some .columnUpdate) = _
  rw [Node.rewrite_of_unchanged (h.unchanged d), h.piecesIn, Node.rewrite_adapt_of_isLeaf d rfl,
    List.append_assoc]
  rfl

theorem wellFormed_columnUpdate {column : Node} (h : column.OfNames) (v : Value) :
    Node.wellFormed ⟨.columnUpdate column (.bound v)⟩ = true := by
  refine Node.wellFormed_mk_iff.mpr (List.forall_mem_cons.mpr ⟨⟨rfl, h.valueFree.wellFormed⟩, ?_⟩)
  exact List.forall_mem_singleton.mpr ⟨rfl, rfl⟩

variable {columns : List Node} (h : ∀ c ∈ columns, c.OfNames) (vs : List Value)
include h

theorem columnUpdate_of_mem_assigned :
    ∀ u ∈ assigned columns vs, u.kind = .columnUpdate ∧ u.wellFormed = true := by
  refine List.forall_mem_map.mpr fun x hx => ⟨rfl, ?_⟩
  exact wellFormed_columnUpdate (h x.1 (List.of_mem_zip hx).1) x.2

theorem map_part_assigned :
    (assigned columns vs).map (fun u => (part d u).2) = assignments d columns vs := by
  rw [assigned, List.map_map]
  refine List.map_congr_left fun x hx => ?_
  exact part_columnUpdate d (h x.1 (List.of_mem_zip hx).1) x.2

theorem refusal?_morePieces : Piece.refusal? (morePieces p (assignments d columns vs)) = none := by
  have hassigned : ∀ x ∈ assignments d columns vs, Piece.refusal? x = none := by
    refine List.forall_mem_map.mpr fun x hx => ?_
    have hcolumn : Piece.refusal? (x.1.pieces d) = none :=
      (h x.1 (List.of_mem_zip hx).1).refusal? d
    rw [Piece.refusal?_append, hcolumn]
    rfl
  rw [morePieces, Piece.refusal?_append, GivenRow.refusal?_joined hassigned]
  split <;> rfl

theorem parameters_morePieces (hlength : vs.length ≤ columns.length) :
    Piece.parameters (morePieces p (assignments d columns vs)) = vs := by
  have hassigned : ∀ x ∈ columns.zip vs,
      Piece.parameters (x.1.pieces d ++ [.text " = ", .parameter x.2]) = [x.2] := by
    intro x hx
    have hx := h x.1 (List.of_mem_zip hx).1
    -- names bind nothing
    have hcolumn := hx.valueFree.binds.parameters d none
    rw [Node.rewrite_of_unchanged (hx.unchanged d)] at hcolumn
    rw [Piece.parameters_append, Node.pieces, hcolumn]
    rfl
  rw [morePieces, Piece.parameters_append, GivenRow.parameters_joined, assignments,
    List.flatMap_map, List.flatMap_congr hassigned, ← List.map_eq_flatMap,
    List.map_snd_zip hlength]
  split <;> rfl

end Columns

theorem mapM_columnUpdate {ms : List (String × Value)} {columns : List Node}
    (h : Read.AsReferences (ms.map Prod.fst) columns) :
    ((ms.map fun m => (m.1, Node.bound m.2)).mapM fun x => columnUpdate x.1 x.2) =
      .ok (assigned columns (ms.map Prod.snd)) := by
  induction ms generalizing columns with
  | nil =>
    cases h
    rfl
  | cons m ms ih =>
    cases h with
    | cons hm h =>
      rw [List.map_cons, List.mapM_cons, ih h, columnUpdate, hm]
      rfl

theorem setAll_bound {ms : List (String × Value)} {columns : List Node}
    (h : Read.AsReferences (ms.map Prod.fst) columns) :
    p.setAll (ms.map fun m => (m.1, .bound m.2)) =
      .ok { p with updates := p.updates ++ assigned columns (ms.map Prod.snd) } := by
  rw [setAll, mapM_columnUpdate h]
  rfl

/-- Values for columns that were read are bound in their order. -/
theorem statement_assigned {p : Update Node} (hp : p.node.wellFormed = true) {keys : List String}
    {columns : List Node} (h : Read.AsReferences keys columns) {vs : List Value}
    (hlength : vs.length = keys.length) :
    Node.statement d ⟨.updateQuery { p with updates := p.updates ++ assigned columns vs }⟩ =
      Piece.statementBetween d (beforeMore d p) (morePieces p (assignments d columns vs))
        (afterMore d p) vs := by
  have hnames := h.ofNames
  rw [Node.statement_eq d (wellFormed_more hp (columnUpdate_of_mem_assigned hnames vs)),
    pieces_more, map_part_assigned d hnames]
  exact Piece.statement_between d _ _ (refusal?_morePieces d p hnames vs)
    (parameters_morePieces d p hnames vs (hlength.trans h.length_eq).le)

end Update

namespace Json.Members

open GivenRow (joined inParens itemPieces namesPieces valuesPieces rowsPieces beforeRows afterRows)
open Update (beforeMore afterMore morePieces assignments assigned)

section Fields

variable (row : Members)

def document : Json := .object row.list

def keys : List String := row.list.map Prod.fst

def values : List Json := row.list.map Prod.snd

/-- The field under a key. -/
def get? (key : String) : Option Json := row.document.get? key

/-- The values that are made from the fields. -/
def made : List Value := row.values.map .ofJson

/-- The value that is made from the field under a key. -/
def cell (key : String) : Option Value := (row.get? key).map .ofJson

theorem nodup_keys : row.keys.Nodup := by
  refine List.pairwise_map.mpr (row.ordered.imp fun {a b} h => ?_)
  rintro (he : a.1 = b.1)
  exact String.lt_irrefl b.1 (he ▸ h)

theorem isRead_of_mem_values {j : Json} (h : j ∈ row.values) : j.IsRead := by
  obtain ⟨m, hm, rfl⟩ := List.mem_map.mp h
  exact row.isRead m hm

/-- Under a key there is one value at most. -/
theorem map_snd_filter_key {α : Type} {ms : List (String × α)} (h : (ms.map Prod.fst).Nodup)
    (key : String) : (ms.filter fun m => m.1 == key).map Prod.snd = (ms.lookup key).toList := by
  induction ms with
  | nil => rfl
  | cons m ms ih =>
    obtain ⟨hm, hms⟩ := List.nodup_cons.mp h
    rw [List.lookup_cons, List.filter_cons, Bool.beq_comm (a := key)]
    cases hk : m.1 == key with
    | true =>
      obtain rfl := eq_of_beq hk
      have hrest : ms.filter (fun x => x.1 == m.1) = [] := by
        refine List.filter_eq_nil_iff.mpr fun x hx he => hm ?_
        exact List.mem_map.mpr ⟨x, hx, eq_of_beq he⟩
      rw [if_pos rfl, hrest]
      rfl
    | false => exact ih hms

theorem toList_get? (key : String) :
    (row.get? key).toList = (row.list.filter fun m => m.1 == key).map Prod.snd :=
  (map_snd_filter_key row.nodup_keys key).symm

theorem isRead_of_get?_eq_some {key : String} {j : Json} (h : row.get? key = some j) :
    j.IsRead := by
  have hj : j ∈ (row.get? key).toList := Option.mem_toList.mpr h
  rw [toList_get?] at hj
  obtain ⟨m, hm, rfl⟩ := List.mem_map.mp hj
  exact row.isRead m (List.mem_filter.mp hm).1

/-- A cell has the field as its plain form, and there is none without a field. -/
theorem map_toJson_cell_iff (key : String) : (row.cell key).map Value.toJson = row.get? key ↔
    ∀ j ∈ row.get? key, ¬ j.IsBeyondInt64 := by
  rw [cell]
  cases hj : row.get? key with
  | none => exact iff_of_true rfl nofun
  | some j =>
    simp only [Option.map_some, Option.some_inj, Option.mem_some, forall_eq']
    exact Value.toJson_ofJson_iff (row.isRead_of_get?_eq_some hj)

end Fields

section Inserts

variable (row : Members) (d : Dialect)

/-- The names of the fields of rows, in the order in which they come up first. -/
def names (rows : List Members) : List String := (rows.flatMap keys).eraseDups

/-- The cells of rows, one for each name. -/
def cells (rows : List Members) : List (List (Option Value)) :=
  rows.map fun row => (names rows).map row.cell

/-- The row of parameters that an object is. -/
def params : GivenRow := row.list.map fun m => (m.1, .bound (.ofJson m.2))

/-- What is written in a column: a parameter, or the default of the column. -/
def cellPieces : Option Value → List Piece
  | some v => [.parameter v]
  | none => [.text d.defaultInsertValue]

/-- The names of the columns, if there are any, and rows under them. -/
def tablePieces (names : List String) (cells : List (List (Option Value))) : List Piece :=
  namesPieces names ++ .text " " :: .text "values " ::
    joined (cells.map fun row => inParens (row.map (cellPieces d)))

theorem mapM_ofJson (rows : List Members) :
    (rows.map document).mapM GivenRow.ofJson = .ok (rows.map params) := by
  rw [List.mapM_map]
  exact mapM_eq_pure rows fun _ _ => rfl

theorem wellFormed_params : ∀ x ∈ row.params, x.2.wellFormed = true :=
  List.forall_mem_map.mpr fun _ _ => rfl

theorem map_fst_params : row.params.map Prod.fst = row.keys := by
  rw [params, List.map_map]
  rfl

theorem columns_params (rows : List Members) :
    GivenRow.columns (rows.map params) = names rows := by
  simp only [GivenRow.columns_eq_eraseDups, List.flatMap_map, map_fst_params, names]

theorem item_params (key : String) : row.params.item key =
    ((row.get? key).map fun j => Node.bound (.ofJson j)).getD ⟨.defaultInsertValue⟩ := by
  have hunder : (row.params.filter fun x => x.1 == key).map Prod.snd =
      (row.get? key).toList.map fun j => Node.bound (.ofJson j) := by
    rw [toList_get?, params, List.filter_map, List.map_map, List.map_map]
    rfl
  rw [GivenRow.item, hunder]
  cases row.get? key <;> rfl

theorem itemPieces_item_params (key : String) :
    itemPieces d (row.params.item key) = cellPieces d (row.cell key) := by
  rw [item_params, cell]
  cases row.get? key with
  | none => exact GivenRow.itemPieces_default d
  | some j => exact GivenRow.itemPieces_value d _ false

theorem rowsPieces_params (rows : List Members) :
    rowsPieces d (rows.map params) = tablePieces d (names rows) (cells rows) := by
  have hcells : valuesPieces d (rows.map params) = .text "values " ::
      joined ((cells rows).map fun row => inParens (row.map (cellPieces d))) := by
    simp only [valuesPieces, columns_params, cells, List.map_map, Function.comp_def,
      itemPieces_item_params]
  rw [rowsPieces, columns_params, hcells]
  rfl

theorem parameters_tablePieces (names : List String) (cells : List (List (Option Value))) :
    Piece.parameters (tablePieces d names cells) = cells.flatMap List.reduceOption := by
  have hcell : ∀ o, Piece.parameters (cellPieces d o) = o.toList := by
    intro o
    cases o <;> rfl
  rw [tablePieces, Piece.parameters_append, GivenRow.parameters_namesPieces, List.nil_append,
    Piece.parameters_text, Piece.parameters_text, GivenRow.parameters_joined, List.flatMap_map]
  refine List.flatMap_congr fun row _ => ?_
  rw [GivenRow.parameters_inParens, List.flatMap_map, List.reduceOption,
    List.filterMap_eq_flatMap_toList]
  exact List.flatMap_congr fun o _ => hcell o

theorem refusal?_tablePieces (names : List String) (cells : List (List (Option Value))) :
    Piece.refusal? (tablePieces d names cells) = none := by
  have hcell : ∀ o, Piece.refusal? (cellPieces d o) = none := by
    intro o
    cases o <;> rfl
  rw [tablePieces, Piece.refusal?_append, GivenRow.refusal?_namesPieces, Option.none_or,
    Piece.refusal?_text, Piece.refusal?_text]
  refine GivenRow.refusal?_joined (List.forall_mem_map.mpr fun row _ => ?_)
  exact GivenRow.refusal?_inParens (List.forall_mem_map.mpr fun o _ => hcell o)

theorem ofDocuments_document (p : Insert Node) {rows : List Members} (h : rows ≠ []) :
    p.ofDocuments (rows.map document) = .ok { p with
      columns := (names rows).map .column
      values := some (GivenRow.values (rows.map params))
      defaultValues := false } := by
  rw [Insert.ofDocuments, mapM_ofJson, ← columns_params]
  exact GivenRow.ofRows_of_ne_nil p (mt List.map_eq_nil_iff.mp h)

theorem statement_insert {p : Insert Node} (hp : p.node.wellFormed = true) (rows : List Members) :
    Node.statement d ⟨.insertQuery { p with
      columns := (names rows).map .column
      values := some (GivenRow.values (rows.map params))
      defaultValues := false }⟩ =
    Piece.statementBetween d (beforeRows d p) (tablePieces d (names rows) (cells rows))
      (afterRows d p) ((cells rows).flatMap List.reduceOption) := by
  obtain ⟨lists, hvalues, hnodes⟩ := GivenRow.exists_values (rows.map params)
  have hwell : (GivenRow.values (rows.map params)).wellFormed = true :=
    GivenRow.wellFormed_rows (List.forall_mem_map.mpr fun row _ => row.wellFormed_params)
  rw [hvalues] at hwell ⊢
  rw [← columns_params, Node.statement_eq d (GivenRow.wellFormed_insert hp _
      (fun n hn => Option.some.inj hn ▸ hwell) false), GivenRow.pieces_insert d p hnodes,
    rowsPieces_params, columns_params]
  exact Piece.statement_between d _ _ (refusal?_tablePieces d _ _) (parameters_tablePieces d _ _)

end Inserts

theorem setDocument_document (p : Update Node) {row : Members} {columns : List Node}
    (h : Read.AsReferences row.keys columns) : p.setDocument row.document =
      .ok { p with updates := p.updates ++ assigned columns row.made } := by
  have hset := @Update.setAll_bound p (row.list.map fun m => (m.1, .ofJson m.2)) columns
  simp only [List.map_map, Function.comp_def] at hset
  rw [made, values, List.map_map]
  exact hset h

theorem length_made (row : Members) : row.made.length = row.keys.length := by
  simp only [made, values, keys, List.length_map]

/-- Rows given as documents are bound field by field.  An insert has a parameter for each field of a
row, under the name of the field, and the default where a row has no such field; an update has one
for each field in the order of the keys, behind what it sets already.  A parameter has its field as
its plain form exactly if the field is no whole number beyond the signed ones. -/
theorem binds_fields (d : Dialect) :
    (∀ p : Insert Node, p.ofDocuments [] = .error (.validation .noInsertRows) ∧
      (∀ schema name replaces, p = .begin (.table schema name) replaces none →
        p.node.wellFormed = true ∧ Piece.refusal? (beforeRows d p ++ afterRows d p) = none) ∧
      ∀ rows : List Members, rows ≠ [] → ∃ q, p.ofDocuments (rows.map document) = .ok q ∧
        (p.node.wellFormed = true → q.node.statement d =
          Piece.statementBetween d (beforeRows d p) (tablePieces d (names rows) (cells rows))
            (afterRows d p) ((cells rows).flatMap List.reduceOption)) ∧
        ∀ row ∈ rows, ∀ key, (row.cell key).map Value.toJson = row.get? key ↔
          ∀ j ∈ row.get? key, ¬ j.IsBeyondInt64) ∧
    ∀ p : Update Node,
      (∀ schema name, p = .begin (.table schema name) none →
        p.node.wellFormed = true ∧ Piece.refusal? (beforeMore d p ++ afterMore d p) = none) ∧
      ∀ row : Members, (∀ key ∈ row.keys, ∃ n, Read.reference key = .ok n) →
        ∃ q columns, p.setDocument row.document = .ok q ∧ Read.AsReferences row.keys columns ∧
          (p.node.wellFormed = true → q.node.statement d =
            Piece.statementBetween d (beforeMore d p)
              (morePieces p (assignments d columns row.made)) (afterMore d p) row.made) ∧
          ∀ j ∈ row.values, (Value.ofJson j).toJson = j ↔ ¬ j.IsBeyondInt64 := by
  refine ⟨fun p => ⟨rfl, ?_, fun rows h => ?_⟩, fun p => ⟨?_, fun row h => ?_⟩⟩
  · rintro schema name replaces rfl
    rw [GivenRow.beforeRows_begin]
    cases schema <;> exact ⟨rfl, rfl⟩
  · exact ⟨_, ofDocuments_document p h, fun hp => statement_insert d hp rows,
      fun row _ key => row.map_toJson_cell_iff key⟩
  · rintro schema name rfl
    rw [Update.beforeMore_begin]
    cases schema <;> exact ⟨rfl, rfl⟩
  · obtain ⟨columns, hcolumns⟩ := Read.exists_asReferences h
    exact ⟨_, columns, setDocument_document p hcolumns, hcolumns,
      fun hp => Update.statement_assigned d hp hcolumns row.length_made,
      fun j hj => Value.toJson_ofJson_iff (row.isRead_of_mem_values hj)⟩

/-- Rows with gaps, a number in an array that would be rounded outside of it, and a key that names a
table. -/
theorem binds_fields_ragged :
    let p : Insert Node := .begin (.table none "person") false none
    let u : Update Node := .begin (.table none "person") none
    let arn : Members := ⟨[("age", .int 30), ("ids", .array [.int 18446744073709551615])],
      by decide, by decide⟩
    let eve : Members := ⟨[("age", .int (-9223372036854775808)), ("p.name", .string "Eve")],
      by decide, by decide⟩
    ([arn, eve] ≠ [] ∧ p.node.wellFormed = true ∧ ∃ q,
      p.ofDocuments [arn.document, eve.document] = .ok q ∧
      q.node.statement .sqlite = .ok
        ("insert into \"person\" (\"age\", \"ids\", \"p.name\") values (?, ?, null), (?, null, ?)",
          [.int 30, .json (.array [.int 18446744073709551615]), .int (-9223372036854775808),
            .string "Eve"]) ∧
      (arn.cell "ids").map Value.toJson = some (.array [.int 18446744073709551615])) ∧
    (∀ key ∈ eve.keys, ∃ n, Read.reference key = .ok n) ∧ u.node.wellFormed = true ∧ ∃ q,
      u.setDocument eve.document = .ok q ∧
      q.node.statement .postgres = .ok
        ("update \"person\" set \"age\" = $1, \"p\".\"name\" = $2",
          [.int (-9223372036854775808), .string "Eve"]) ∧
      (Value.ofJson (.string "Eve")).toJson = .string "Eve" := by
  intro p u arn eve
  have hrows : [arn, eve] ≠ [] := nofun
  have hp : p.node.wellFormed = true := rfl
  have hu : u.node.wellFormed = true := rfl
  have hage : Read.reference "age" = .ok (.column "age") := rfl
  have hname : Read.reference "p.name" =
      .ok ⟨.reference (some (.table none "p")) (.column "name")⟩ := rfl
  have hkeys : ∀ key ∈ eve.keys, ∃ n, Read.reference key = .ok n :=
    List.forall_mem_cons.mpr ⟨⟨_, hage⟩, List.forall_mem_singleton.mpr ⟨_, hname⟩⟩
  obtain ⟨-, -, hinsert⟩ := (binds_fields .sqlite).1 p
  obtain ⟨q, hq, hstatement, hcell⟩ := hinsert [arn, eve] hrows
  obtain ⟨-, hupdate⟩ := (binds_fields .postgres).2 u
  obtain ⟨q', columns, hq', hcolumns, hstatement', hvalue⟩ := hupdate eve hkeys
  obtain _ | ⟨hage', _ | ⟨hname', _ | _⟩⟩ := hcolumns
  cases hage.symm.trans hage'
  cases hname.symm.trans hname'
  refine ⟨⟨hrows, hp, q, hq, ?_, ?_⟩, hkeys, hu, q', hq', ?_, ?_⟩
  · rw [hstatement hp]
    rfl
  · refine (hcell arn List.mem_cons_self "ids").mpr fun j hj => ?_
    cases hj
    exact id
  · rw [hstatement' hu]
    rfl
  · exact (hvalue _ (List.mem_cons_of_mem _ List.mem_cons_self)).mpr id

/-- The largest number of 64 bits without a sign is bound as the floating-point number above it. -/
theorem not_binds_unsigned :
    let p : Insert Node := .begin (.table none "t") false none
    let row : Members := ⟨[("id", .int 18446744073709551615)], by decide, by decide⟩
    (∃ q, p.ofDocuments [row.document] = .ok q ∧ q.node.statement .postgres =
      .ok ("insert into \"t\" (\"id\") values ($1)", [.float 18446744073709551616.0])) ∧
    ¬ ∀ (row : Members) (key : String), (row.cell key).map Value.toJson = row.get? key := by
  intro p row
  have hid : Value.ofJson (.int 18446744073709551615) = .float 18446744073709551616.0 := by
    rw [Value.ofJson_beyond (by decide)]
    exact congrArg Value.float (by decide +kernel)
  refine ⟨⟨_, ofDocuments_document p (List.cons_ne_nil row []), ?_⟩, fun h => ?_⟩
  · rw [← hid]
    exact statement_insert .postgres rfl [row]
  · have hbeyond := (row.map_toJson_cell_iff "id").mp (h row "id")
    have hlarge : (Json.int 18446744073709551615).IsBeyondInt64 :=
      show (2 : Int) ^ 63 ≤ 18446744073709551615 by decide
    exact hbeyond _ rfl hlarge

end Json.Members

end SqlTree
