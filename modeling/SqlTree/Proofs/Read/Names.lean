import SqlTree.Proofs.Tree.Every
import SqlTree.Read.Reference

/-!
# What names are read as

Texts that name columns, tables, indexes and views are read as well-formed trees of names, without
a value or an operation in them (`Read.ofNames_reference`).
-/

namespace SqlTree

theorem exists_of_bind_eq_ok {ε α β : Type} {x : Except ε α} {f : α → Except ε β} {b : β}
    (h : x >>= f = .ok b) : ∃ a, x = .ok a ∧ f a = .ok b := by
  cases x with
  | error e => cases h
  | ok a => exact ⟨a, rfl, h⟩

theorem forall_mem_of_mapM_eq_ok {ε α β : Type} {f : α → Except ε β} {P : β → Prop}
    (hf : ∀ {a b}, f a = .ok b → P b) {as : List α} {bs : List β} (h : as.mapM f = .ok bs) :
    ∀ b ∈ bs, P b := by
  induction as generalizing bs with
  | nil =>
    cases h
    exact List.forall_mem_nil _
  | cons a as ih =>
    rw [List.mapM_cons] at h
    obtain ⟨b, hb, h⟩ := exists_of_bind_eq_ok h
    obtain ⟨bs, hbs, h⟩ := exists_of_bind_eq_ok h
    cases h
    exact List.forall_mem_cons.mpr ⟨hf hb, ih hbs⟩

/-- Whether a shape names something. -/
def Shape.isName {α : Type} : Shape α → Bool
  | .identifier _ => true
  | .schemableIdentifier _ _ => true
  | .table _ => true
  | .column _ => true
  | .selectAll => true
  | .reference _ _ => true
  | _ => false

namespace Node

/-- Trees made of names. -/
def OfNames : Node → Prop := Every fun s => s.Fits ∧ s.isName = true

theorem ofNames_mk {s : Shape Node} (h : s.isName = true) :
    OfNames ⟨s⟩ ↔ ∀ x ∈ s.slotted, x.1.admits x.2.kind = true ∧ x.2.OfNames := by
  rw [OfNames, every_mk, ← Shape.map_snd_slotted, List.forall_mem_map]
  constructor
  · exact fun hs x hx => ⟨hs.1.1 x hx, hs.2 x hx⟩
  · exact fun hs => ⟨⟨fun x hx => (hs x hx).1, h⟩, fun x hx => (hs x hx).2⟩

theorem ofNames_identifier (name : String) : (identifier name).OfNames :=
  (ofNames_mk rfl).mpr nofun

theorem ofNames_schemable (schema : Option String) (name : String) :
    (schemable schema name).OfNames := by
  refine (ofNames_mk rfl).mpr ?_
  cases schema with
  | none => exact List.forall_mem_singleton.mpr ⟨rfl, ofNames_identifier name⟩
  | some schema =>
    refine List.forall_mem_cons.mpr ⟨⟨rfl, ofNames_identifier schema⟩, ?_⟩
    exact List.forall_mem_singleton.mpr ⟨rfl, ofNames_identifier name⟩

theorem ofNames_table (schema : Option String) (name : String) : (table schema name).OfNames :=
  (ofNames_mk rfl).mpr (List.forall_mem_singleton.mpr ⟨rfl, ofNames_schemable schema name⟩)

theorem ofNames_column (name : String) : (column name).OfNames :=
  (ofNames_mk rfl).mpr (List.forall_mem_singleton.mpr ⟨rfl, ofNames_identifier name⟩)

theorem ofNames_qualified (schema : Option String) (table : String) {column : Node}
    (h : column.OfNames) : OfNames ⟨.reference (some (.table schema table)) column⟩ :=
  (ofNames_mk rfl).mpr (List.forall_mem_cons.mpr
    ⟨⟨rfl, ofNames_table schema table⟩, List.forall_mem_singleton.mpr ⟨rfl, h⟩⟩)

end Node

namespace Read

open Node

theorem ofNames_columnOrAll (name : String) : (columnOrAll name).OfNames := by
  unfold columnOrAll
  split
  · exact (ofNames_mk rfl).mpr nofun
  · exact ofNames_column name

variable {input : String} {n : Node}

theorem ofNames_reference (h : reference input = .ok n) : n.OfNames := by
  unfold reference at h
  dsimp only at h
  split at h
  · cases h
  · split at h
    · cases h
    · cases h
      exact ofNames_columnOrAll _
    · cases h
      exact ofNames_qualified none _ (ofNames_columnOrAll _)
    · cases h
      exact ofNames_qualified _ _ (ofNames_columnOrAll _)
    · cases h

theorem ofNames_table (h : table input = .ok n) : n.kind = .table ∧ n.OfNames := by
  obtain ⟨parts, -, h⟩ := exists_of_bind_eq_ok h
  cases h
  exact ⟨rfl, Node.ofNames_table _ _⟩

theorem ofNames_schemable (h : schemable input = .ok n) :
    n.kind = .schemableIdentifier ∧ n.OfNames := by
  obtain ⟨parts, -, h⟩ := exists_of_bind_eq_ok h
  cases h
  exact ⟨rfl, Node.ofNames_schemable _ _⟩

theorem ofNames_column (h : column input = .ok n) : n.kind = .column ∧ n.OfNames := by
  obtain ⟨name, -, h⟩ := exists_of_bind_eq_ok h
  cases h
  exact ⟨rfl, Node.ofNames_column name⟩

theorem ofNames_identifier (h : identifier input = .ok n) : n.kind = .identifier ∧ n.OfNames := by
  unfold identifier at h
  dsimp only at h
  split at h
  · cases h
  · cases h
    exact ⟨rfl, Node.ofNames_identifier _⟩

theorem ofNames_foreignColumn {t c : Node} (h : foreignColumn input = .ok (t, c)) :
    (t.kind = .table ∧ t.OfNames) ∧ c.kind = .column ∧ c.OfNames := by
  unfold foreignColumn at h
  split at h
  · obtain ⟨t', ht, h⟩ := exists_of_bind_eq_ok h
    obtain ⟨c', hc, h⟩ := exists_of_bind_eq_ok h
    cases h
    exact ⟨ofNames_table ht, ofNames_column hc⟩
  · cases h

end Read

end SqlTree
