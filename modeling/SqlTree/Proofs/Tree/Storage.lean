import SqlTree.Tree.Names
import SqlTree.Proofs.Tree.Equality
import SqlTree.Proofs.Tree.Every
import SqlTree.Proofs.Tree.Records
import SqlTree.Proofs.Tree.Stored
import SqlTree.Proofs.Value.Tagged

/-!
# Stored trees are read back

A well-formed tree whose values have a stored form is read from its stored form as it was
(`Node.ofJson?_toJson`), and from the same document with the members of its objects in order.
-/

namespace SqlTree

namespace Json

variable {α : Type} (alg : Algebra α)

theorem foldItems_eq_map (js : List Json) : foldItems alg js = js.map (fold alg) := by
  induction js with
  | nil => rfl
  | cons j js ih => rw [foldItems, ih, List.map_cons]

theorem foldMembers_eq_map (ms : List (String × Json)) :
    foldMembers alg ms = ms.map fun m => (m.1, m.2.fold alg) := by
  induction ms with
  | nil => rfl
  | cons m ms ih => rw [foldMembers, ih, List.map_cons]

end Json

namespace Reading

variable (mode : Json.Mode) (keep : Reading → Option Reading)

mutual

/-- Nothing in a document is passed over. -/
theorem json_fold : ∀ j : Json, (j.fold (algebra mode keep)).json = some j
  | .null | .bool _ | .int _ | .float _ | .string _ => rfl
  | .array js => by
    show ((Json.foldItems (algebra mode keep) js).mapM Reading.json).map Json.array = _
    rw [json_foldItems js, Option.map_some]
  | .object ms => by
    show ((Json.foldMembers (algebra mode keep) ms).mapM
      fun m : String × Reading => m.2.json.map (m.1, ·)).map Json.object = _
    rw [json_foldMembers ms, Option.map_some]

theorem json_foldItems : ∀ js : List Json,
    (Json.foldItems (algebra mode keep) js).mapM Reading.json = some js
  | [] => rfl
  | j :: js => by
    rw [Json.foldItems, List.mapM_cons, json_fold j, json_foldItems js]
    rfl

theorem json_foldMembers : ∀ ms : List (String × Json),
    (Json.foldMembers (algebra mode keep) ms).mapM
      (fun m : String × Reading => m.2.json.map (m.1, ·)) = some ms
  | [] => rfl
  | (k, j) :: ms => by
    rw [Json.foldMembers, List.mapM_cons, json_fold j, json_foldMembers ms]
    rfl

end

end Reading

namespace Json

@[simp] theorem json_reading (j : Json) : j.reading.json = some j := Reading.json_fold _ _ j

theorem reading_array (js : List Json) :
    (Json.array js).reading = Reading.array .direct (js.map reading) := by
  show Reading.array _ (foldItems Reading.direct js) = _
  rw [foldItems_eq_map]
  rfl

theorem reading_object (ms : List (String × Json)) :
    (Json.object ms).reading = Reading.object .direct (fun r => r.json.map (·.fold Reading.kept))
      (ms.map fun m => (m.1, m.2.reading)) := by
  show Reading.object _ _ (foldMembers Reading.direct ms) = _
  rw [foldMembers_eq_map]
  rfl

end Json

/-- Whether the values in a node have a stored form. -/
def Shape.Storable {α : Type} (s : Shape α) : Prop :=
  ∀ f ∈ s.fields, ∀ v ∈ f.2.values, v.Storable

open Json (Reorders)

variable {T : Json → Json}

theorem mapM_ofTagged? (hT : Reorders T) {vs : List Value} (h : ∀ v ∈ vs, v.Storable) :
    ((vs.map Value.toTagged).map T).mapM Value.ofTagged? = some vs := by
  induction vs with
  | nil => rfl
  | cons v vs ih =>
    rw [List.forall_mem_cons] at h
    simp only [List.map_cons, List.mapM_cons, Value.ofTagged?_toTagged hT h.1, ih h.2,
      Option.bind_eq_bind, Option.bind_some, Option.pure_def]

theorem values?_reading {js : List Json} {vs : List Value}
    (h : js.mapM Value.ofTagged? = some vs) : (Json.array js).reading.values? = some vs := by
  rw [Reading.values?, Json.json_reading]
  exact h

/-- A list of children is read back if each of them is. -/
theorem nodes_reading {slot : Slot} {f : Node → Json} {ns : List Node}
    (h : ∀ n ∈ ns, (f n).reading.node slot = some n) :
    (Json.array (ns.map f)).reading.nodes slot = some ns := by
  rw [Json.reading_array]
  show ((ns.map f).map Json.reading).mapM (·.node slot) = _
  induction ns with
  | nil => rfl
  | cons n ns ih =>
    rw [List.forall_mem_cons] at h
    simp only [List.map_cons, List.mapM_cons, h.1, ih h.2, Option.bind_eq_bind,
      Option.bind_some, Option.pure_def]

/-- A node with fields is not read from `null`. -/
theorem json_ne_null_of_node {slot : Slot} {j : Json} {n : Node} (h : j.reading.node slot = some n)
    (hselectAll : slot ≠ .only .selectAll) (hdefault : slot ≠ .only .defaultInsertValue) :
    j.reading.json ≠ some .null := by
  rw [Json.json_reading]
  rintro ⟨⟩
  cases slot with
  | any => cases h
  | only k =>
    have hk : Reading.fieldless? k = some n := h
    unfold Reading.fieldless? at hk
    split at hk
    · exact hselectAll rfl
    · exact hdefault rfl
    · cases hk

/-- The stored form of a field stands for it, if those of the children stand for them. -/
theorem Field.readBy_toJson (hT : Reorders T) {f : Field Node} (hf : f.Regular)
    (hvalues : ∀ v ∈ f.values, v.Storable)
    (hchildren : ∀ x ∈ f.slotted, (T (x.2.jsonIn x.1)).reading.node x.1 = some x.2) :
    f.ReadBy (T (f.map Node.jsonIn).toJson).reading := by
  cases f with
  | child slot n => exact hchildren _ List.mem_cons_self
  | optional slot n =>
    cases n with
    | none =>
      show (T .null).reading.json = _
      rw [hT.sorted _ rfl, Json.json_reading]
    | some n =>
      have hn := hchildren (slot, n) List.mem_cons_self
      exact ⟨hn, json_ne_null_of_node hn hf.1 hf.2⟩
  | children slot ns =>
    show (T (.array ((ns.map Node.jsonIn).map (· slot)))).reading.nodes slot = _
    rw [hT.array, List.map_map, List.map_map]
    exact nodes_reading fun n hn => hchildren _ (List.mem_map_of_mem hn)
  | items i =>
    cases i with
    | primitive vs =>
      show (T (.object [("Primitive", .array (vs.map Value.toTagged))])).reading.items = _
      rw [hT.single, hT.array, Json.reading_object]
      exact congrArg (Option.map ListItems.primitive)
        (values?_reading (mapM_ofTagged? hT hvalues))
    | expressions ns =>
      show (T (.object [("Expressions", .array ((ns.map Node.jsonIn).map (· .any)))])).reading.items
        = _
      have hread : (Json.array (ns.map fun n => T (n.jsonIn .any))).reading.nodes .any = some ns :=
        nodes_reading fun n hn => hchildren (.any, n) (List.mem_map_of_mem hn)
      rw [hT.single, hT.array, Json.reading_object, List.map_map, List.map_map]
      exact congrArg (Option.map ListItems.expressions) hread
  | value v =>
    show (T v.toTagged).reading.value? = _
    rw [Reading.value?, Json.json_reading]
    exact Value.ofTagged?_toTagged hT (hvalues v List.mem_cons_self) _
  | plain j =>
    show (T j).reading.json = _
    rw [Json.json_reading, hT.sorted j hf]

namespace Node

/-- The record of a node, without its kind. -/
def record (s : Shape Node) : Json := recordJson (s.stored.map fun f => (f.1, f.2.map jsonIn))

theorem recordJson_para (s : Shape Node) : recordJson
    ((s.map fun n => (n, jsonIn n)).stored.map fun f => (f.1, f.2.map Prod.snd)) = record s := by
  rw [Shape.stored_map, List.map_map, record]
  congr 2
  funext f
  exact congrArg (f.1, ·) (Field.map_map _ _ f.2)

theorem jsonIn_any (s : Shape Node) : jsonIn ⟨s⟩ .any =
    .object [("kind", .string s.kind.name), ("node", record s)] := by
  rw [jsonIn, para_mk, ← recordJson_para]
  rfl

theorem jsonIn_only (s : Shape Node) (k : Kind) : jsonIn ⟨s⟩ (.only k) = record s := by
  rw [jsonIn, para_mk, ← recordJson_para]
  rfl

theorem fieldless?_kind {s : Shape Node} (h : s.fields ≠ []) :
    Reading.fieldless? s.kind = none := by
  cases s
  case selectAll | defaultInsertValue => exact absurd rfl h
  all_goals rfl

/-- A node without fields is its kind. -/
theorem reading_record_of_fields_eq_nil (hT : Reorders T) {s : Shape Node} (h : s.fields = []) :
    (T (record s)).reading.node (.only s.kind) = some ⟨s⟩ := by
  have hrecord : record s = .null := by
    rw [record, recordJson, List.Perm.eq_nil (h ▸ s.stored_perm : s.stored.Perm [])]
    rfl
  rw [hrecord, hT.sorted _ rfl]
  cases s
  case selectAll | defaultInsertValue => rfl
  all_goals cases h

/-- The members of the record of a node. -/
def members (s : Shape Node) : List (String × Json) :=
  s.stored.map fun f => (f.1, (f.2.map jsonIn).toJson)

theorem nodup_members (s : Shape Node) : ((members s).map Prod.fst).Nodup := by
  rw [members, List.map_map]
  exact ((s.stored_perm.map Prod.fst).nodup_iff).mpr s.nodup_fields

theorem record_eq_object {s : Shape Node} (h : s.fields ≠ []) : record s = .object (members s) := by
  have hstored : (s.stored.map fun f => (f.1, f.2.map jsonIn)).isEmpty = false := by
    rw [List.isEmpty_eq_false_iff]
    intro hnil
    exact h (List.Perm.eq_nil (List.map_eq_nil_iff.mp hnil ▸ s.stored_perm.symm))
  rw [record, recordJson, hstored, if_neg Bool.false_ne_true, List.map_map]
  rfl

/-- A record is read back if the records of the children are. -/
theorem reading_record (hT : Reorders T) {s : Shape Node} (hs : s.Storable)
    (hchildren : ∀ x ∈ s.slotted, (T (x.2.jsonIn x.1)).reading.node x.1 = some x.2) :
    (T (record s)).reading.node (.only s.kind) = some ⟨s⟩ := by
  by_cases hfields : s.fields = []
  · exact reading_record_of_fields_eq_nil hT hfields
  obtain ⟨ms', hperm, hobject⟩ := hT.moved _ (nodup_members s)
  have hkeys : ((ms'.map fun m => (m.1, m.2.reading)).map Prod.fst).Nodup := by
    rw [List.map_map]
    refine ((hperm.map Prod.fst).nodup_iff).mpr ?_
    rw [List.map_map]
    exact nodup_members s
  have hheld : ∀ f ∈ s.fields, Field.Held (ms'.map fun m => (m.1, m.2.reading)) f := by
    intro f hf
    refine ⟨(T (f.2.map jsonIn).toJson).reading, ?_, ?_⟩
    · refine List.mem_map.mpr ⟨(f.1, T (f.2.map jsonIn).toJson), hperm.mem_iff.mpr ?_, rfl⟩
      rw [members, List.map_map]
      exact List.mem_map.mpr ⟨f, s.stored_perm.mem_iff.mpr hf, rfl⟩
    · refine Field.readBy_toJson hT (s.regular_fields f hf) (hs f hf) fun x hx => ?_
      exact hchildren x (List.mem_flatMap.mpr ⟨f, hf, hx⟩)
  have hgives := RecordReader.gives_shape hkeys hfields hheld
  rw [record_eq_object hfields, hobject, Json.reading_object]
  show Reading.ofRecord? .direct _ (.named _) s.kind = _
  rw [Reading.ofRecord?, fieldless?_kind hfields]
  show Record.node? s.kind (.named _) = _
  rw [Record.node?, hgives]

theorem reading_jsonIn (hT : Reorders T) {n : Node} (hw : n.wellFormed = true)
    (hs : n.Every Shape.Storable) {slot : Slot} (hslot : slot.admits n.kind = true) :
    (T (n.jsonIn slot)).reading.node slot = some n := by
  induction n using childrenInduction generalizing slot with
  | h s ih =>
    obtain ⟨hs, hbelow⟩ := every_mk.mp hs
    have hrecord : (T (record s)).reading.node (.only s.kind) = some ⟨s⟩ := by
      refine reading_record hT hs fun x hx => ?_
      have hc := Shape.mem_children_of_mem_slotted hx
      obtain ⟨hadmits, hwf⟩ := wellFormed_mk_iff.mp hw x hx
      exact ih x.2 hc hwf (hbelow x.2 hc) hadmits
    cases slot with
    | only k =>
      obtain rfl : k = s.kind := eq_of_beq hslot
      rw [jsonIn_only]
      exact hrecord
    | any =>
      have htag : (Json.reading (.string s.kind.name)).word? = some s.kind.name :=
        RecordReader.word?_of_json (Json.json_reading _)
      have hordered : [("kind", Json.string s.kind.name), ("node", record s)].Pairwise
          (·.1 < ·.1) := List.pairwise_pair.mpr (by show "kind" < "node"; decide)
      rw [jsonIn_any, hT.ordered _ hordered, Json.reading_object]
      show Reading.tagged (T (.string s.kind.name)).reading (T (record s)).reading = _
      rw [hT.string, Reading.tagged, htag]
      simp only [Option.bind_eq_bind, Option.bind_some, Kind.ofName?_name, hrecord]

/-- A well-formed tree is read back from its stored form, be the members of the objects in the
order in which they were written or in the order of their keys. -/
theorem ofJson?_toJson {n : Node} (hw : n.wellFormed = true) (hs : n.Every Shape.Storable) :
    ofJson? n.toJson = some n ∧ ofJson? n.toJson.sorted = some n :=
  ⟨reading_jsonIn .id hw hs rfl, reading_jsonIn .sort hw hs rfl⟩

/-- A select with an absent clause before one that is there, and with two kinds of values. -/
theorem ofJson?_toJson_select :
    let n : Node := ⟨.selectQuery {
      fromClause := some ⟨.fromClause [.table (some "app") "person"]⟩
      selections := [⟨.selection ⟨.selectAll⟩⟩]
      whereClause := some ⟨.whereClause ⟨.binaryOperation ⟨.reference none (.column "born")⟩
        ⟨.operator .eq⟩ ⟨.value (.date ⟨-1, 2, 28, rfl⟩) false⟩⟩⟩
      orderBy := some ⟨.orderBy [⟨.orderByItem (.column "id") (some .desc) none⟩]⟩
      limit := some ⟨.limit ⟨.value (.json (.object [("a", .int 1), ("b", .null)])) true⟩⟩ }⟩
    n.wellFormed = true ∧ n.Every Shape.Storable ∧
      ofJson? n.toJson = some n ∧ ofJson? n.toJson.sorted = some n := by
  intro n
  have hw : n.wellFormed = true := by decide
  have hmembers : (Json.object [("a", .int 1), ("b", .null)]).sorted =
      .object [("a", .int 1), ("b", .null)] := rfl
  have hs : n.Every Shape.Storable := by
    simp [n, every_mk, Shape.Storable, Shape.children, Shape.fields, Select.fields, Field.toList,
      Field.values, Field.text, Field.flag, Field.word, Field.optionalWord, table, schemable,
      column, identifier, Value.Storable, hmembers]
  exact ⟨hw, hs, ofJson?_toJson hw hs⟩

end Node

end SqlTree
