import SqlTree.Build.Insert
import SqlTree.Proofs.Pass.Leaves
import SqlTree.Proofs.Render.Parameters

/-!
# Rows under their columns

Rows may give their columns in any order, leave some out and give some more than once.  What stands
in a column is the last value that the row gives for it, or its default (`GivenRow.item`), however
the row is kept (`GivenRow.exists_aligned`).  So the names and the items of every row are written in
one order, and values are bound in the order of the items (`GivenRow.ofRows_lines_up`).
-/

namespace SqlTree

/-- The nodes in a list of values; plain ones are bound. -/
def ListItems.nodes : ListItems Node → List Node
  | .primitive vs => vs.map .bound
  | .expressions ns => ns

/-- The pieces of an adapted node from those of its adapted children. -/
theorem Node.piecesIn_rewrite_adapt (d : Dialect) {s : Shape Node} (hs : s.kind ≠ .selectQuery)
    (hb : s.kind ≠ .binaryOperation) (parent : Option Kind) :
    (Node.rewrite d.adapt ⟨s⟩).piecesIn d parent = Layout.pieces d parent (s.each fun c =>
      (c.rewrite d.adapt, (c.rewrite d.adapt).piecesIn d (some s.kind))) := by
  rw [d.rewrite_adapt_mk hs hb, ← Shape.map_eq_each, Node.piecesIn_mk, Shape.map_map,
    Shape.kind_map, Shape.map_eq_each]
  rfl

namespace GivenRow

section Columns

theorem newNames_eq_eraseDups (seen ns : List String) :
    newNames seen ns = (ns.filter fun n => !seen.contains n).eraseDups := by
  induction ns generalizing seen with
  | nil => rfl
  | cons n ns ih =>
    rw [newNames, List.filter_cons]
    cases hseen : seen.contains n with
    | true => exact ih seen
    | false =>
      simp only [Bool.false_eq_true, if_false, Bool.not_false, if_true, List.eraseDups_cons,
        List.filter_filter, ih, List.contains_cons, Bool.not_or]

/-- The columns are the names that the rows give, in the order in which they come up first. -/
theorem columns_eq_eraseDups (rows : List GivenRow) :
    columns rows = (rows.flatMap fun row => row.map Prod.fst).eraseDups := by
  rw [columns, newNames_eq_eraseDups]
  exact congrArg List.eraseDups (List.filter_eq_self.mpr fun _ _ => rfl)

end Columns

section Items

/-- What stands in a column: the last value that the row gives for it, or its default. -/
def item (row : GivenRow) (column : String) : Node :=
  (((row.filter fun x => x.1 == column).map Prod.snd).getLast?).getD ⟨.defaultInsertValue⟩

theorem lookup_eq_head? (xs : List (String × Node)) (k : String) :
    xs.lookup k = ((xs.filter fun x => x.1 == k).map Prod.snd).head? := by
  induction xs with
  | nil => rfl
  | cons x xs ih =>
    rw [List.lookup_cons, List.filter_cons, Bool.beq_comm (a := k)]
    cases x.1 == k <;> simp [ih]

theorem getD_get? (row : GivenRow) (column : String) :
    (row.get? column).getD ⟨.defaultInsertValue⟩ = row.item column := by
  rw [get?, lookup_eq_head?, List.filter_reverse, List.map_reverse, List.head?_reverse, item]

theorem eq_of_value? {o : Option Node} {v : Value} (h : value? o = some v) :
    o = some (.bound v) := by
  unfold value? at h
  split at h
  · cases h
    rfl
  · cases h

theorem eq_of_mapM_value? {slots : List (Option Node)} {vs : List Value}
    (h : slots.mapM value? = some vs) : slots = vs.map fun v => some (.bound v) := by
  induction slots generalizing vs with
  | nil => cases h; rfl
  | cons o slots ih =>
    simp only [List.mapM_cons, Option.bind_eq_bind, Option.bind_eq_some_iff, Option.pure_def,
      Option.some.injEq] at h
    obtain ⟨v, hv, vs', hvs, rfl⟩ := h
    rw [List.map_cons, ← ih hvs, eq_of_value? hv]

/-- A row is kept as one item for each column. -/
theorem exists_aligned (columns : List String) (row : GivenRow) : ∃ items : ListItems Node,
    aligned columns row = ⟨.valueList items⟩ ∧ items.nodes = columns.map row.item := by
  unfold aligned
  dsimp only
  split
  · rename_i vs hvs
    refine ⟨_, rfl, ?_⟩
    have hslots := congrArg (List.map fun n => n.getD ⟨.defaultInsertValue⟩) (eq_of_mapM_value? hvs)
    rw [List.map_map, List.map_map] at hslots
    exact hslots.symm.trans (List.map_congr_left fun c _ => row.getD_get? c)
  · refine ⟨_, rfl, ?_⟩
    rw [ListItems.nodes, List.map_map]
    exact List.map_congr_left fun c _ => row.getD_get? c

/-- So are all rows, under the columns of all. -/
theorem exists_values (rows : List GivenRow) : ∃ lists : List (ListItems Node),
    values rows = ⟨.values (lists.map fun i => ⟨.valueList i⟩)⟩ ∧
      lists.map ListItems.nodes = rows.map fun row => (columns rows).map row.item := by
  choose items haligned hnodes using exists_aligned (columns rows)
  refine ⟨rows.map items, ?_, ?_⟩
  · rw [values, List.map_map]
    exact congrArg (fun ls => Node.mk (.values ls)) (List.map_congr_left fun row _ => haligned row)
  · rw [List.map_map]
    exact List.map_congr_left fun row _ => hnodes row

end Items

section Pieces

open Layout

/-- Pieces with commas between them. -/
def joined (xs : List (List Piece)) : List Piece := [Piece.text ", "].intercalate xs

def inParens (xs : List (List Piece)) : List Piece := .text "(" :: joined xs ++ [.text ")"]

/-- The pieces of what stands in a column. -/
def itemPieces (d : Dialect) (n : Node) : List Piece :=
  (n.rewrite d.adapt).piecesIn d (some .valueList)

/-- The items of each row in the order of the columns. -/
def valuesPieces (d : Dialect) (rows : List GivenRow) : List Piece :=
  .text "values " ::
    joined (rows.map fun row => inParens ((columns rows).map fun c => itemPieces d (row.item c)))

/-- The names of the columns, if there are any. -/
def namesPieces (names : List String) : List Piece :=
  if names.isEmpty then [] else .text " " :: inParens (names.map fun c => [.name c])

/-- The names of the columns, if there are any, and then the rows. -/
def rowsPieces (d : Dialect) (rows : List GivenRow) : List Piece :=
  (if (columns rows).isEmpty then []
    else .text " " :: inParens ((columns rows).map fun c => [.name c])) ++
  .text " " :: valuesPieces d rows

/-- The values that are bound in a column: a plain value itself, none by a default or a literal, and
those inside an expression. -/
def boundBy (d : Dialect) : Node → List Value
  | ⟨.value v immediate⟩ => if immediate then [] else [v]
  | ⟨.defaultInsertValue⟩ => []
  | n => Piece.parameters (itemPieces d n)

theorem joined_cons_cons (x y : List Piece) (ys : List (List Piece)) :
    joined (x :: y :: ys) = x ++ .text ", " :: joined (y :: ys) := by
  rw [joined, List.intercalate_cons_cons, List.append_assoc]
  rfl

theorem joined_append (xs ys : List (List Piece)) : joined (xs ++ ys) =
    joined xs ++ ((if xs.isEmpty || ys.isEmpty then [] else [.text ", "]) ++ joined ys) := by
  induction xs with
  | nil => rfl
  | cons x xs ih =>
    cases xs with
    | nil =>
      have hx : joined [x] = x := List.append_nil x
      cases ys with
      | nil => exact (List.append_nil _).symm
      | cons y ys =>
        rw [List.singleton_append, joined_cons_cons, hx]
        rfl
    | cons x' xs =>
      rw [List.cons_append, List.cons_append, joined_cons_cons, ← List.cons_append, ih,
        joined_cons_cons]
      simp

theorem commas_eq_joined (ps : List Part) : commas ps = joined (ps.map Prod.snd) := by
  induction ps with
  | nil => rfl
  | cons p ps ih =>
    cases ps with
    | nil => exact (List.append_nil _).symm
    | cons q qs =>
      rw [List.map_cons, List.map_cons, joined_cons_cons, ← List.map_cons, ← ih]
      rfl

theorem listed_eq_inParens (ps : List Part) : listed ps = inParens (ps.map Prod.snd) := by
  rw [listed, commas_eq_joined]
  rfl

theorem parameters_eq_joined (vs : List Value) :
    Layout.parameters vs = joined (vs.map fun v => [.parameter v]) := by
  induction vs with
  | nil => rfl
  | cons v vs ih =>
    cases vs with
    | nil => rfl
    | cons w ws =>
      rw [List.map_cons, List.map_cons, joined_cons_cons]
      exact congrArg ([.parameter v, .text ", "] ++ ·) ih

theorem parameters_joined (xs : List (List Piece)) :
    Piece.parameters (joined xs) = xs.flatMap Piece.parameters := by
  induction xs with
  | nil => rfl
  | cons x xs ih =>
    cases xs with
    | nil => exact congrArg Piece.parameters (List.append_nil x) |>.trans (List.append_nil _).symm
    | cons y ys =>
      rw [joined_cons_cons, Piece.parameters_append, Piece.parameters_text, ih]
      rfl

theorem parameters_inParens (xs : List (List Piece)) :
    Piece.parameters (inParens xs) = xs.flatMap Piece.parameters := by
  rw [inParens, List.cons_append, Piece.parameters_text, Piece.parameters_append,
    parameters_joined]
  exact List.append_nil _

theorem refusal?_joined {xs : List (List Piece)} (h : ∀ x ∈ xs, Piece.refusal? x = none) :
    Piece.refusal? (joined xs) = none := by
  induction xs with
  | nil => rfl
  | cons x xs ih =>
    obtain ⟨hx, hxs⟩ := List.forall_mem_cons.mp h
    cases xs with
    | nil => exact (congrArg Piece.refusal? (List.append_nil x)).trans hx
    | cons y ys =>
      rw [joined_cons_cons, Piece.refusal?_append, hx, Piece.refusal?_text, ih hxs]
      rfl

theorem refusal?_inParens {xs : List (List Piece)} (h : ∀ x ∈ xs, Piece.refusal? x = none) :
    Piece.refusal? (inParens xs) = none := by
  rw [inParens, List.cons_append, Piece.refusal?_text, Piece.refusal?_append, refusal?_joined h]
  rfl

theorem parameters_namesPieces (names : List String) :
    Piece.parameters (namesPieces names) = [] := by
  unfold namesPieces
  split
  · rfl
  · rw [Piece.parameters_text, parameters_inParens, List.flatMap_map]
    exact List.flatMap_eq_nil_iff.mpr fun _ _ => rfl

theorem refusal?_namesPieces (names : List String) : Piece.refusal? (namesPieces names) = none := by
  unfold namesPieces
  split
  · rfl
  · rw [Piece.refusal?_text]
    exact refusal?_inParens (List.forall_mem_map.mpr fun _ _ => rfl)

theorem itemPieces_value (d : Dialect) (v : Value) (immediate : Bool) :
    itemPieces d ⟨.value v immediate⟩ = if immediate then [.literal v] else [.parameter v] := by
  rw [itemPieces, Node.rewrite_adapt_of_isLeaf d rfl]
  rfl

theorem itemPieces_default (d : Dialect) :
    itemPieces d ⟨.defaultInsertValue⟩ = [.text d.defaultInsertValue] := by
  rw [itemPieces, d.rewrite_adapt_mk (by simp [Shape.kind]) (by simp [Shape.kind])]
  rfl

theorem parameters_itemPieces (d : Dialect) (n : Node) :
    Piece.parameters (itemPieces d n) = boundBy d n := by
  unfold boundBy
  split
  · rename_i v immediate
    rw [itemPieces_value]
    cases immediate <;> rfl
  · rw [itemPieces_default]
    rfl
  · rfl

theorem parameters_rowsPieces (d : Dialect) (rows : List GivenRow) :
    Piece.parameters (rowsPieces d rows) =
      rows.flatMap fun row => (columns rows).flatMap fun c => boundBy d (row.item c) := by
  have hnames : Piece.parameters (if (columns rows).isEmpty then []
      else .text " " :: inParens ((columns rows).map fun c => [.name c])) = [] :=
    parameters_namesPieces _
  rw [rowsPieces, Piece.parameters_append, hnames, List.nil_append, Piece.parameters_text,
    valuesPieces, Piece.parameters_text, parameters_joined, List.flatMap_map]
  simp only [parameters_inParens, List.flatMap_map, parameters_itemPieces]

/-- A list of values is written item by item, plain or not. -/
theorem piecesIn_valueList (d : Dialect) (items : ListItems Node) (parent : Option Kind) :
    (Node.rewrite d.adapt ⟨.valueList items⟩).piecesIn d parent =
      inParens (items.nodes.map (itemPieces d)) := by
  cases items with
  | primitive vs =>
    have hitems : (vs.map Node.bound).map (itemPieces d) = vs.map fun v => [.parameter v] := by
      rw [List.map_map]
      exact List.map_congr_left fun v _ => itemPieces_value d v false
    rw [Node.rewrite_adapt_of_isLeaf d rfl, ListItems.nodes, hitems, inParens,
      ← parameters_eq_joined]
    rfl
  | expressions ns =>
    rw [Node.piecesIn_rewrite_adapt d (by simp [Shape.kind]) (by simp [Shape.kind])]
    show listed _ = _
    rw [listed_eq_inParens, List.map_map]
    rfl

theorem piecesIn_values (d : Dialect) {rows : List GivenRow} {lists : List (ListItems Node)}
    (hlists : lists.map ListItems.nodes = rows.map fun row => (columns rows).map row.item)
    (parent : Option Kind) :
    (Node.rewrite d.adapt ⟨.values (lists.map fun i => ⟨.valueList i⟩)⟩).piecesIn d parent =
      valuesPieces d rows := by
  have hrows := congrArg (List.map fun ns => inParens (ns.map (itemPieces d))) hlists
  simp only [List.map_map, Function.comp_def, ← piecesIn_valueList d _ (some .values)] at hrows
  rw [Node.piecesIn_rewrite_adapt d (by simp [Shape.kind]) (by simp [Shape.kind])]
  show Layout.sql "values " ++ commas _ = _
  rw [commas_eq_joined, List.map_map, List.map_map, valuesPieces, ← hrows]
  rfl

theorem piecesIn_identifier (d : Dialect) (name : String) (parent : Option Kind) :
    ((Node.identifier name).rewrite d.adapt).piecesIn d parent = [.name name] := by
  rw [Node.identifier, Node.rewrite_adapt_of_isLeaf d rfl]
  rfl

theorem piecesIn_column (d : Dialect) (c : String) (parent : Option Kind) :
    ((Node.column c).rewrite d.adapt).piecesIn d parent = [.name c] := by
  rw [Node.column, Node.piecesIn_rewrite_adapt d (by simp [Shape.kind]) (by simp [Shape.kind])]
  exact piecesIn_identifier d c _

theorem piecesIn_table (d : Dialect) (schema : Option String) (name : String)
    (parent : Option Kind) : ((Node.table schema name).rewrite d.adapt).piecesIn d parent =
      (schema.elim [] fun s => [.name s, .text "."]) ++ [.name name] := by
  rw [Node.table, Node.piecesIn_rewrite_adapt d (by simp [Shape.kind]) (by simp [Shape.kind])]
  show ((Node.schemable schema name).rewrite d.adapt).piecesIn d _ = _
  rw [Node.schemable, Node.piecesIn_rewrite_adapt d (by simp [Shape.kind]) (by simp [Shape.kind])]
  cases schema with
  | none => exact piecesIn_identifier d name _
  | some s =>
    show ((Node.identifier s).rewrite d.adapt).piecesIn d _ ++ Layout.sql "." ++
      ((Node.identifier name).rewrite d.adapt).piecesIn d _ = _
    rw [piecesIn_identifier, piecesIn_identifier]
    rfl

end Pieces

section Insert

open Layout

variable (d : Dialect) (p : Insert Node)

/-- A part of an insert with its pieces. -/
def part (c : Node) : Part :=
  (c.rewrite d.adapt, (c.rewrite d.adapt).piecesIn d (some .insertQuery))

def beforeRows : List Piece :=
  leading (p.explain.map (part d)) ++ leading (p.withClause.map (part d)) ++
    insertVerb d p.ignore p.replace ++ after " into " (p.into.map (part d))

def afterRows : List Piece :=
  clause (p.onConflict.map (part d)) ++
    sqlIf (ignoresAtEnd d (p.each (part d))) " on conflict do nothing" ++
    clause (p.onDuplicateKey.map (part d)) ++ clause (p.returning.map (part d))

/-- An insert is written part by part, whatever its rows come from. -/
theorem pieces_named (names : List String) (values : Option Node) (defaultValues : Bool) :
    (Node.rewrite d.adapt ⟨.insertQuery { p with
      columns := names.map .column, values, defaultValues }⟩).pieces d =
    beforeRows d p ++ namesPieces names ++ clause (values.map (part d)) ++
      sqlIf defaultValues " default values" ++ afterRows d p := by
  have hcolumns : (names.map .column).map (fun c => (part d c).2) =
      names.map fun c => [Piece.name c] := by
    rw [List.map_map]
    exact List.map_congr_left fun c _ => piecesIn_column d c _
  rw [Node.pieces, Node.piecesIn_rewrite_adapt d (by simp [Shape.kind]) (by simp [Shape.kind])]
  show Layout.insert d (Insert.each (part d) _) = _
  rw [Layout.insert, namesPieces, ← hcolumns]
  simp only [beforeRows, afterRows, Insert.each, listed_eq_inParens, List.map_map,
    List.isEmpty_map, List.append_assoc]
  rfl

theorem pieces_insert {rows : List GivenRow} {lists : List (ListItems Node)}
    (hlists : lists.map ListItems.nodes = rows.map fun row => (columns rows).map row.item) :
    (Node.rewrite d.adapt ⟨.insertQuery { p with
      columns := (columns rows).map .column
      values := some ⟨.values (lists.map fun i => ⟨.valueList i⟩)⟩
      defaultValues := false }⟩).pieces d =
    beforeRows d p ++ rowsPieces d rows ++ afterRows d p := by
  rw [pieces_named, rowsPieces, ← piecesIn_values d hlists (some .insertQuery), namesPieces]
  simp only [List.append_assoc]
  rfl

theorem beforeRows_begin (schema : Option String) (name : String) (replaces : Bool) :
    beforeRows d (.begin (.table schema name) replaces none) =
      .text (if replaces then "replace" else "insert") :: .text " into " ::
        (schema.elim [] fun s => [.name s, .text "."]) ++ [.name name] := by
  have hverb : insertVerb d false replaces =
      [.text (if replaces then "replace" else "insert")] := by
    cases replaces <;> rfl
  rw [beforeRows]
  show [] ++ [] ++ insertVerb d false replaces ++ Piece.text " into " :: _ = _
  rw [hverb, part, piecesIn_table]
  rfl

theorem ofRows_of_ne_nil {rows : List GivenRow} (h : rows ≠ []) : p.ofRows rows = .ok { p with
    columns := columnNodes rows, values := some (values rows), defaultValues := false } := by
  rw [Insert.ofRows, List.isEmpty_eq_false_iff.mpr h]
  rfl

end Insert

section WellFormed

open Node

theorem wellFormed_item {row : GivenRow} (h : ∀ x ∈ row, x.2.wellFormed = true) (c : String) :
    (row.item c).wellFormed = true := by
  unfold item
  cases hlast : ((row.filter fun x => x.1 == c).map Prod.snd).getLast? with
  | none => rfl
  | some n =>
    obtain ⟨x, hx, rfl⟩ := List.mem_map.mp (List.mem_of_getLast? hlast)
    exact h x (List.mem_filter.mp hx).1

theorem wellFormed_listItems {items : ListItems Node}
    (h : ∀ n ∈ items.nodes, n.wellFormed = true) : wellFormed ⟨.valueList items⟩ = true := by
  cases items with
  | primitive vs => rfl
  | expressions ns => exact wellFormed_valueList h

theorem wellFormed_values {lists : List (ListItems Node)}
    (h : ∀ items ∈ lists, ∀ n ∈ items.nodes, n.wellFormed = true) :
    wellFormed ⟨.values (lists.map fun i => ⟨.valueList i⟩)⟩ = true := by
  refine wellFormed_mk_iff.mpr fun x hx => ?_
  simp only [Shape.slotted, Shape.fields, List.flatMap_cons, List.flatMap_nil, Field.slotted,
    List.append_nil, List.mem_map] at hx
  obtain ⟨_, ⟨items, hitems, rfl⟩, rfl⟩ := hx
  exact ⟨rfl, wellFormed_listItems (h items hitems)⟩

theorem wellFormed_insert {p : Insert Node} (hp : p.node.wellFormed = true) (names : List String)
    {values : Option Node} (hvalues : ∀ n ∈ values, n.wellFormed = true) (defaultValues : Bool) :
    wellFormed ⟨.insertQuery { p with
      columns := names.map .column, values, defaultValues }⟩ = true := by
  refine wellFormed_mk_iff.mpr fun x hx => ?_
  have hcases : x ∈ (Shape.insertQuery p).slotted ∨ (∃ c, x = (.only .column, .column c)) ∨
      ∃ n ∈ values, x = (.any, n) := by
    simp only [Shape.slotted, Shape.fields, Insert.fields, List.flatMap_cons, List.flatMap_nil,
      Field.slotted_optional, Field.slotted_children, Field.slotted_flag, List.map_map,
      List.mem_append, List.mem_map, Option.mem_toList, Function.comp_apply] at hx ⊢
    grind
  obtain h | ⟨c, rfl⟩ | ⟨n, hn, rfl⟩ := hcases
  · exact wellFormed_mk_iff.mp hp x h
  · exact ⟨rfl, rfl⟩
  · exact ⟨rfl, hvalues n hn⟩

theorem wellFormed_rows {rows : List GivenRow}
    (h : ∀ row ∈ rows, ∀ x ∈ row, x.2.wellFormed = true) : (values rows).wellFormed = true := by
  obtain ⟨lists, hvalues, hnodes⟩ := exists_values rows
  rw [hvalues]
  apply wellFormed_values
  intro items hitems n hn
  obtain ⟨row, hrow, he⟩ := List.mem_map.mp (hnodes ▸ List.mem_map_of_mem hitems)
  obtain ⟨c, -, rfl⟩ := List.mem_map.mp (he ▸ hn)
  exact wellFormed_item (h row hrow) c

end WellFormed

/-- Rows given to an insert line up with its columns.  These are the names that come up in the rows;
every row has an item for each, which is the last value that the row gives for it, or its default.
Names and items are written in one order, and the items bind their values in it. -/
theorem ofRows_lines_up (p : Insert Node) (d : Dialect) :
    ∃ before after : List Piece,
      (∀ schema name replaces, p = .begin (.table schema name) replaces none →
        before = .text (if replaces then "replace" else "insert") :: .text " into " ::
          (schema.elim [] fun s => [.name s, .text "."]) ++ [.name name] ∧
        Piece.parameters before = [] ∧ after = []) ∧
      ∀ rows : List GivenRow, rows ≠ [] → ∃ (q : Insert Node) (lists : List (ListItems Node)),
        p.ofRows rows = .ok q ∧
        columns rows = (rows.flatMap fun row => row.map Prod.fst).eraseDups ∧
        q = { p with
          columns := (columns rows).map .column
          values := some ⟨.values (lists.map fun i => ⟨.valueList i⟩)⟩
          defaultValues := false } ∧
        lists.map ListItems.nodes = rows.map (fun row => (columns rows).map row.item) ∧
        (p.node.wellFormed = true → (∀ row ∈ rows, ∀ x ∈ row, x.2.wellFormed = true) →
          let ps := before ++ rowsPieces d rows ++ after
          q.node.compile d = (match Piece.refusal? ps with
            | some f => .error (.unsupported d.name f)
            | none => .ok ⟨q.node.rewrite d.adapt, Piece.sql d ps, Piece.parameters ps⟩) ∧
          Piece.parameters ps = Piece.parameters before ++
            (rows.flatMap fun row => (columns rows).flatMap fun c => boundBy d (row.item c)) ++
              Piece.parameters after) := by
  refine ⟨beforeRows d p, afterRows d p, ?_, fun rows hrows => ?_⟩
  · rintro schema name replaces rfl
    have hbefore := beforeRows_begin d schema name replaces
    exact ⟨hbefore, by cases schema <;> exact congrArg Piece.parameters hbefore, rfl⟩
  · obtain ⟨lists, hvalues, hnodes⟩ := exists_values rows
    refine ⟨_, lists, ofRows_of_ne_nil p hrows, columns_eq_eraseDups rows, by rw [hvalues]; rfl,
      hnodes, fun hp hgiven => ?_⟩
    have hw := wellFormed_insert hp (columns rows)
      (fun n hn => Option.some.inj hn ▸ wellFormed_rows hgiven) false
    have hpieces := pieces_insert d p hnodes
    rw [hvalues] at hw ⊢
    constructor
    · rw [← hpieces]
      split
      · exact Node.compile_of_refusal hw ‹_›
      · exact Node.compile_of_no_refusal hw ‹_›
    · rw [Piece.parameters_append, Piece.parameters_append, parameters_rowsPieces]

/-- A row that gives a column twice, and one that leaves it out. -/
theorem ofRows_lines_up_ragged :
    let p : Insert Node := .begin (.table none "person") false none
    let rows : List GivenRow := [
      [("name", .bound (.string "Arn")), ("age", .bound (.int 30)),
        ("name", .bound (.string "Arnold"))],
      [("age", .bound (.int 40))]]
    p.node.wellFormed = true ∧ rows ≠ [] ∧ (∀ row ∈ rows, ∀ x ∈ row, x.2.wellFormed = true) ∧
      columns rows = ["name", "age"] ∧
      ∃ q c, p.ofRows rows = .ok q ∧ q.node.compile .postgres = .ok c ∧
        c.sql = "insert into \"person\" (\"name\", \"age\") values ($1, $2), (default, $3)" ∧
        c.parameters = [.string "Arnold", .int 30, .int 40] := by
  intro p rows
  have hp : p.node.wellFormed = true := rfl
  have hrows : rows ≠ [] := nofun
  have hgiven : ∀ row ∈ rows, ∀ x ∈ row, x.2.wellFormed = true := by decide
  obtain ⟨before, after, hfresh, hall⟩ := ofRows_lines_up p .postgres
  obtain ⟨rfl, -, rfl⟩ := hfresh none "person" false rfl
  obtain ⟨q, lists, hq, hcolumns, -, -, hcompiled⟩ := hall rows hrows
  obtain ⟨hcompile, -⟩ := hcompiled hp hgiven
  exact ⟨hp, hrows, hgiven, hcolumns.trans (by decide), q, _, hq, hcompile, rfl, rfl⟩

end GivenRow

end SqlTree
