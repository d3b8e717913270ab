import SqlTree.Tree.Codec
import SqlTree.Proofs.Tree.Equality

/-!
# Records are read back

A record whose members stand for the fields of a shape, in whatever order, is read as that shape
(`RecordReader.gives_shape`).
-/

namespace SqlTree

theorem Kind.ofName?_name (k : Kind) : Kind.ofName? k.name = some k := by
  cases k <;> decide

/-- Whether a reading stands for a field. -/
def Field.ReadBy : Field Node → Reading → Prop
  | .child slot n, r => r.node slot = some n
  | .optional _ none, r => r.json = some .null
  | .optional slot (some n), r => r.node slot = some n ∧ r.json ≠ some .null
  | .children slot ns, r => r.nodes slot = some ns
  | .items i, r => r.items = some i
  | .value v, r => r.value? = some v
  | .plain j, r => r.json = some j

/-- Whether a member of a record stands for a field. -/
def Field.Held (ms : List (String × Reading)) (f : String × Field Node) : Prop :=
  ∃ r, (f.1, r) ∈ ms ∧ f.2.ReadBy r

namespace RecordReader

variable {α β : Type}

/-- What a reader makes of an object. -/
def Gives (reader : RecordReader α) (ms : List (String × Reading)) (a : α) : Prop :=
  reader (.named ms) = some (a, .named ms)

variable {ms : List (String × Reading)}

theorem Gives.lift {o : Option α} {a : α} (h : o = some a) :
    Gives (StateT.lift o) ms a := by
  subst h
  rfl

theorem Gives.bind {reader : RecordReader α} {next : α → RecordReader β} {a : α} {b : β}
    (h : reader.Gives ms a) (hnext : (next a).Gives ms b) :
    (reader >>= next : RecordReader β).Gives ms b := by
  show (reader (.named ms)).bind _ = _
  rw [h]
  exact hnext

theorem Gives.map {reader : RecordReader α} {a : α} (h : reader.Gives ms a) (f : α → β) :
    (f <$> reader : RecordReader β).Gives ms (f a) := by
  show Gives (reader >>= fun a => pure (f a)) ms (f a)
  exact .bind h rfl

theorem Gives.seq {f : RecordReader (α → β)} {reader : RecordReader α} {g : α → β} {a : α}
    (hf : f.Gives ms g) (h : reader.Gives ms a) :
    (f <*> reader : RecordReader β).Gives ms (g a) :=
  Gives.bind hf (h.map g)

theorem filter_eq_singleton {name : String} {r : Reading} (hkeys : (ms.map Prod.fst).Nodup)
    (h : (name, r) ∈ ms) : ms.filter (·.1 == name) = [(name, r)] := by
  induction ms with
  | nil => cases h
  | cons m ms ih =>
    rw [List.map_cons, List.nodup_cons] at hkeys
    obtain rfl | h := List.mem_cons.mp h
    · have hnone : ms.filter (·.1 == name) = [] :=
        List.filter_eq_nil_iff.mpr fun m hm he =>
          hkeys.1 (List.mem_map.mpr ⟨m, hm, eq_of_beq he⟩)
      rw [List.filter_cons, if_pos (beq_self_eq_true name), hnone]
    · have hne : (m.1 == name) = false := beq_eq_false_iff_ne.mpr fun he =>
        hkeys.1 (List.mem_map.mpr ⟨_, h, he.symm⟩)
      rw [List.filter_cons_of_neg (by rw [hne]; decide), ih hkeys.2 h]

theorem next?_named {name : String} {r : Reading} (hkeys : (ms.map Prod.fst).Nodup)
    (h : (name, r) ∈ ms) : (next? name).Gives ms (some r) := by
  simp only [Gives, next?, filter_eq_singleton hkeys h]

variable {name : String}

theorem word?_of_json {r : Reading} {s : String} (h : r.json = some (.string s)) :
    r.word? = some s := by
  rw [Reading.word?, h]
  rfl

theorem ofName?_word? {e : Type} [Named e] [Recalled e] {r : Reading} {x : e}
    (h : r.json = some (.string (Named.name x))) :
    (do Named.ofName? (← r.word?)) = some x := by
  rw [word?_of_json h]
  exact Recalled.ofName?_name x

section Fields

variable (hkeys : (ms.map Prod.fst).Nodup)

include hkeys

theorem gives_required {read : Reading → Option α} {r : Reading} {a : α} (h : (name, r) ∈ ms)
    (hr : read r = some a) : (required name read).Gives ms a :=
  .bind (next?_named hkeys h) (.lift hr)

theorem gives_defaulting {read : Reading → Option α} {dflt : Option α} {r : Reading} {a : α}
    (h : (name, r) ∈ ms) (hr : read r = some a) : (defaulting dflt name read).Gives ms a :=
  .bind (next?_named hkeys h) (.lift hr)

theorem gives_optionally_some {read : Reading → Option α} {defaults : Bool} {r : Reading} {a : α}
    (h : (name, r) ∈ ms) (hr : read r = some a) (hnull : r.json ≠ some .null) :
    (optionally defaults name read).Gives ms (some a) := by
  have hread : (read r).map some = some (some a) := by rw [hr]; rfl
  refine .bind (next?_named hkeys h) ?_
  dsimp only
  split
  case h_1 hjson => exact absurd hjson hnull
  case h_2 => exact .lift hread

theorem gives_optionally_none {read : Reading → Option α} {defaults : Bool} {r : Reading}
    (h : (name, r) ∈ ms) (hnull : r.json = some .null) :
    (optionally defaults name read).Gives ms none := by
  refine .bind (next?_named hkeys h) ?_
  simp only [hnull]
  rfl

/-- A field without children that may be absent. -/
theorem gives_optionally_plain {read : Reading → Option α} {defaults : Bool} {f : α → Json}
    (hread : ∀ (r : Reading) (a : α), r.json = some (f a) → read r = some a)
    (hnull : ∀ a, f a ≠ .null) {o : Option α} {r : Reading} (h : (name, r) ∈ ms)
    (hr : r.json = some (o.elim .null f)) : (optionally defaults name read).Gives ms o := by
  cases o with
  | none => exact gives_optionally_none hkeys h hr
  | some a =>
    refine gives_optionally_some hkeys h (hread r a hr) ?_
    rw [hr]
    exact fun he => hnull a (Option.some.inj he)

open Field (Held)

variable {slot : Slot} {defaults : Bool}

theorem gives_child {n : Node} (h : Held ms (name, .child slot n)) :
    (child slot name).Gives ms n :=
  have ⟨_, hmem, hr⟩ := h
  gives_required hkeys hmem hr

theorem gives_defaultingChild {dflt n : Node} (h : Held ms (name, .child slot n)) :
    (defaulting (some dflt) name (·.node slot)).Gives ms n :=
  have ⟨_, hmem, hr⟩ := h
  gives_defaulting hkeys hmem hr

theorem gives_optional {n : Option Node} (h : Held ms (name, .optional slot n)) :
    (optional slot name defaults).Gives ms n := by
  obtain ⟨r, hmem, hr⟩ := h
  cases n with
  | none => exact gives_optionally_none hkeys hmem hr
  | some n => exact gives_optionally_some hkeys hmem hr.1 hr.2

theorem gives_children {ns : List Node} (h : Held ms (name, .children slot ns)) :
    (children slot name defaults).Gives ms ns :=
  have ⟨_, hmem, hr⟩ := h
  gives_defaulting hkeys hmem hr

theorem gives_items {i : ListItems Node} (h : Held ms (name, .items i)) :
    (items name).Gives ms i :=
  have ⟨_, hmem, hr⟩ := h
  gives_required hkeys hmem hr

theorem gives_value {v : Value} (h : Held ms (name, .value v)) : (value name).Gives ms v :=
  have ⟨_, hmem, hr⟩ := h
  gives_required hkeys hmem hr

theorem gives_flag {b : Bool} (h : Held ms (name, .flag b)) :
    (flag name defaults).Gives ms b := by
  obtain ⟨r, hmem, hr⟩ := h
  refine gives_defaulting hkeys hmem ?_
  have hjson : r.json = some (.bool b) := hr
  rw [hjson]
  rfl

theorem gives_text {s : String} (h : Held ms (name, .text s)) : (text name).Gives ms s := by
  obtain ⟨r, hmem, hr⟩ := h
  refine gives_required hkeys hmem ?_
  have hjson : r.json = some (.string s) := hr
  rw [hjson]
  rfl

theorem gives_optionalFlag {b : Option Bool} (h : Held ms (name, .optionalFlag b)) :
    (optionalFlag name).Gives ms b := by
  obtain ⟨r, hmem, hr⟩ := h
  refine gives_optionally_plain hkeys (f := .bool) (fun r b h => ?_) nofun hmem ?_
  · rw [h]
    rfl
  · cases b <;> exact hr

theorem gives_optionalText {s : Option String} (h : Held ms (name, .optionalText s)) :
    (optionalText name).Gives ms s := by
  obtain ⟨r, hmem, hr⟩ := h
  refine gives_optionally_plain hkeys (f := .string) (fun r s h => ?_) nofun hmem ?_
  · rw [h]
    rfl
  · cases s <;> exact hr

theorem gives_texts {ss : List String} (h : Held ms (name, .texts ss)) :
    (texts name).Gives ms ss := by
  obtain ⟨r, hmem, hr⟩ := h
  refine gives_required hkeys hmem ?_
  have hjson : r.json = some (.array (ss.map .string)) := hr
  have hread : (ss.map Json.string).mapM Json.string? = some ss := by
    clear hr hjson hmem
    induction ss with
    | nil => rfl
    | cons s ss ih => simp [Json.string?, ih]
  simp only [Reading.texts?, hjson, Option.bind_eq_bind, Option.bind_some, Json.array?, hread]

variable {e : Type} [Named e] [Recalled e]

theorem gives_word {x : e} (h : Held ms (name, .word x)) : (word name).Gives ms x :=
  have ⟨_, hmem, hr⟩ := h
  gives_required hkeys hmem (ofName?_word? hr)

theorem gives_optionalWord {x : Option e} (h : Held ms (name, .optionalWord x)) :
    (optionalWord name).Gives ms x := by
  obtain ⟨r, hmem, hr⟩ := h
  refine gives_optionally_plain hkeys (fun r x h => ofName?_word? h) nofun hmem ?_
  cases x <;> exact hr

/-- A record that holds the fields of a shape is read as it. -/
theorem gives_shape {s : Shape Node} (hfields : s.fields ≠ []) (h : ∀ f ∈ s.fields, Held ms f) :
    (shape s.kind).Gives ms s := by
  -- A reader applies a form to readers of its fields, so which lemma reads a field shows in it.
  cases s
  case selectAll | defaultInsertValue => exact absurd rfl hfields
  case aggregateFunction p | onConflict p | selectQuery p | insertQuery p | updateQuery p |
      deleteQuery p | mergeQuery p | createTable p | columnDefinition p | generated p |
      references p | createIndex p | createView p | alterTable p | alterColumn p =>
    cases p
    simp only [Shape.fields, Aggregate.fields, OnConflict.fields, Select.fields, Insert.fields,
      Update.fields, Delete.fields, Merge.fields, CreateTable.fields, ColumnDefinition.fields,
      Generated.fields, References.fields, CreateIndex.fields, CreateView.fields,
      AlterTable.fields, AlterColumn.fields, List.forall_mem_cons, List.not_mem_nil,
      false_imp_iff, implies_true, and_true] at h
    repeat first
      | apply Gives.map
      | apply Gives.seq
    all_goals first
      | exact gives_child hkeys (by simp only [h])
      | exact gives_optional hkeys (by simp only [h])
      | exact gives_children hkeys (by simp only [h])
      | exact gives_flag hkeys (by simp only [h])
      | exact gives_text hkeys (by simp only [h])
      | exact gives_optionalText hkeys (by simp only [h])
      | exact gives_optionalWord hkeys (by simp only [h])
      | exact gives_defaultingChild hkeys (by simp only [h])
  all_goals
    simp only [Shape.fields, List.forall_mem_cons, List.not_mem_nil, false_imp_iff, implies_true,
      and_true] at h
    repeat first
      | apply Gives.map
      | apply Gives.seq
    all_goals first
      | exact gives_child hkeys (by simp only [h])
      | exact gives_optional hkeys (by simp only [h])
      | exact gives_children hkeys (by simp only [h])
      | exact gives_flag hkeys (by simp only [h])
      | exact gives_text hkeys (by simp only [h])
      | exact gives_texts hkeys (by simp only [h])
      | exact gives_optionalText hkeys (by simp only [h])
      | exact gives_word hkeys (by simp only [h])
      | exact gives_optionalWord hkeys (by simp only [h])
      | exact gives_optionalFlag hkeys (by simp only [h])
      | exact gives_value hkeys (by simp only [h])
      | exact gives_items hkeys (by simp only [h])

end Fields

end RecordReader

end SqlTree
