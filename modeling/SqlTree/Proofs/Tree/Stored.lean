import SqlTree.Proofs.Tree.Each
import SqlTree.Proofs.Json.Order

/-!
# Stored fields

The fields of a node have different names, and in the order in which they are stored none is left
out or added (`Shape.stored_perm`).  None of them is written like another content of the same field
(`Shape.regular_fields`).
-/

namespace SqlTree

section Lookup

variable {β γ : Type}

theorem lookup_map_snd (g : β → γ) (name : String) (l : List (String × β)) :
    (l.map fun x => (x.1, g x.2)).lookup name = (l.lookup name).map g := by
  induction l with
  | nil => rfl
  | cons x l ih =>
    rw [List.map_cons, List.lookup_cons, List.lookup_cons, ih]
    cases name == x.1 <;> rfl

theorem lookup_of_mem {l : List (String × β)} (h : (l.map Prod.fst).Nodup) {x : String × β}
    (hx : x ∈ l) : l.lookup x.1 = some x.2 := by
  induction l with
  | nil => cases hx
  | cons y l ih =>
    rw [List.map_cons, List.nodup_cons] at h
    rw [List.lookup_cons]
    obtain rfl | hx := List.mem_cons.mp hx
    · rw [beq_self_eq_true]
    · have hne : (x.1 == y.1) = false := beq_eq_false_iff_ne.mpr fun he =>
        h.1 (List.mem_map.mpr ⟨x, hx, he⟩)
      rw [hne]
      exact ih h.2 hx

/-- Looking up all names, in whatever order, finds everything. -/
theorem filterMap_lookup_perm {l : List (String × β)} (h : (l.map Prod.fst).Nodup)
    {names : List String} (hnames : names.Perm (l.map Prod.fst)) :
    (names.filterMap fun name => (l.lookup name).map (name, ·)).Perm l := by
  have hall : (l.map Prod.fst).filterMap (fun name => (l.lookup name).map (name, ·)) = l := by
    rw [List.filterMap_map]
    have hsome : ∀ x ∈ l, ((fun name => (l.lookup name).map (name, ·)) ∘ Prod.fst) x = some x :=
      fun x hx => by rw [Function.comp_apply, lookup_of_mem h hx]; rfl
    rw [List.filterMap_congr hsome, List.filterMap_some]
  exact (hnames.filterMap _).trans (.of_eq hall)

end Lookup

namespace Field

variable {α : Type}

/-- The values in a field. -/
def values : Field α → List Value
  | .value v => [v]
  | .items (.primitive vs) => vs
  | _ => []

/-- Whether no other content of a field is written like the one it has: what may be absent is never
written as `null` when it is there, and what is no child has its members in order. -/
def Regular : Field α → Prop
  | .optional slot _ => slot ≠ .only .selectAll ∧ slot ≠ .only .defaultInsertValue
  | .plain j => j.sorted = j
  | _ => True

@[simp] theorem regular_child (slot : Slot) (a : α) : (child slot a).Regular := trivial

@[simp] theorem regular_optional_any (a : Option α) : (optional .any a).Regular :=
  ⟨nofun, nofun⟩

@[simp] theorem regular_optional_only (k : Kind) (a : Option α) :
    (optional (.only k) a).Regular ↔ k ≠ .selectAll ∧ k ≠ .defaultInsertValue := by
  simp [Regular]

@[simp] theorem regular_children (slot : Slot) (as : List α) : (children slot as).Regular :=
  trivial

@[simp] theorem regular_items (i : ListItems α) : (items i).Regular := trivial

@[simp] theorem regular_value (v : Value) : (value v : Field α).Regular := trivial

@[simp] theorem regular_word {e : Type} [Named e] (x : e) : (word x : Field α).Regular := rfl

@[simp] theorem regular_optionalWord {e : Type} [Named e] (x : Option e) :
    (optionalWord x : Field α).Regular := by
  cases x <;> rfl

@[simp] theorem regular_flag (b : Bool) : (flag b : Field α).Regular := rfl

@[simp] theorem regular_optionalFlag (b : Option Bool) : (optionalFlag b : Field α).Regular := by
  cases b <;> rfl

@[simp] theorem regular_text (s : String) : (text s : Field α).Regular := rfl

@[simp] theorem regular_optionalText (s : Option String) :
    (optionalText s : Field α).Regular := by
  cases s <;> rfl

@[simp] theorem regular_texts (ss : List String) : (texts ss : Field α).Regular := by
  show (Json.array (ss.map .string)).sorted = _
  rw [Json.sorted, Json.sortedItems_eq_map, List.map_map]
  rfl

end Field

namespace Shape

variable {α β : Type}

theorem regular_fields (s : Shape α) : ∀ f ∈ s.fields, f.2.Regular := by
  cases s <;>
    simp [fields, Aggregate.fields, OnConflict.fields, Select.fields, Insert.fields,
      Update.fields, Delete.fields, Merge.fields, CreateTable.fields, ColumnDefinition.fields,
      Generated.fields, References.fields, CreateIndex.fields, CreateView.fields,
      AlterTable.fields, AlterColumn.fields]

theorem nodup_fields (s : Shape α) : (s.fields.map Prod.fst).Nodup := by
  cases s
  all_goals
    simp only [fields, Aggregate.fields, OnConflict.fields, Select.fields, Insert.fields,
      Update.fields, Delete.fields, Merge.fields, CreateTable.fields, ColumnDefinition.fields,
      Generated.fields, References.fields, CreateIndex.fields, CreateView.fields,
      AlterTable.fields, AlterColumn.fields, List.map_cons, List.map_nil]
    decide

/-- The names of the stored fields of a statement on rows are those of its fields. -/
theorem storedOrder_perm {s : Shape α} {names : List String}
    (h : s.kind.storedOrder? = some names) : names.Perm (s.fields.map Prod.fst) := by
  cases s
  case selectQuery | insertQuery | updateQuery | deleteQuery | mergeQuery =>
    obtain rfl := Option.some.inj h
    simp only [fields, Select.fields, Insert.fields, Update.fields, Delete.fields, Merge.fields,
      List.map_cons, List.map_nil]
    decide
  all_goals cases h

theorem stored_perm (s : Shape α) : s.stored.Perm s.fields := by
  unfold stored
  split
  case h_1 names h => exact filterMap_lookup_perm s.nodup_fields (storedOrder_perm h)
  case h_2 => exact .refl _

theorem stored_map (f : α → β) (s : Shape α) :
    (s.map f).stored = s.stored.map fun x => (x.1, x.2.map f) := by
  unfold stored
  rw [kind_map, fields_map]
  split
  · rw [List.map_filterMap]
    refine List.filterMap_congr fun name _ => ?_
    rw [lookup_map_snd]
    cases s.fields.lookup name <;> rfl
  · rfl

end Shape

end SqlTree
