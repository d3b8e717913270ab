import SqlTree.Value.Codec
import SqlTree.Proofs.Json.Order
import SqlTree.Proofs.Value.Texts

/-!
# Tagged values are read back

The tagged form of a value is read as that value (`Value.ofTagged?_toTagged`), as long as it has
one: a number that is not finite is written as nothing.
-/

namespace SqlTree

namespace Value

/-- Values that have a tagged form, where the documents that values hold keep their members in the
order of their keys. -/
def Storable : Value → Prop
  | .float x => x.isFinite = true
  | .json j => j.sorted = j
  | _ => True

theorem int64?_toInt (n : Int64) : int64? n.toInt = some n := by
  have hbounds : Int64.minValue.toInt ≤ n.toInt ∧ n.toInt ≤ Int64.maxValue.toInt :=
    ⟨n.minValue_le_toInt, n.toInt_le⟩
  rw [int64?, if_pos hbounds, Int64.ofInt_toInt]

end Value

namespace Json

theorem byte?_toNat (b : UInt8) : byte? (.int b.toNat) = some b := by
  have hbounds : (0 : Int) ≤ b.toNat ∧ (b.toNat : Int) < 256 := by
    have := b.toNat_lt
    omega
  rw [byte?, if_pos hbounds]
  simp

theorem mapM_byte? (bs : List UInt8) :
    (bs.map fun b => Json.int b.toNat).mapM byte? = some bs := by
  induction bs with
  | nil => rfl
  | cons b bs ih =>
    simp only [List.map_cons, List.mapM_cons, byte?_toNat, ih, Option.bind_eq_bind,
      Option.bind_some, Option.pure_def]

/-- The word of an object is its key. -/
theorem word?_single_ne {k word : String} (h : k ≠ word) (j : Json) (mode : Mode) :
    (Json.object [(k, j)]).word? mode ≠ some word := by
  rw [word?]
  split
  · exact fun he => h (Option.some.inj he)
  · exact nofun

end Json

namespace Value

open Json (Reorders)

variable {T : Json → Json}

theorem ofTagged?_toTagged (hT : Reorders T) {v : Value} (h : v.Storable) (mode : Json.Mode) :
    ofTagged? (T v.toTagged) mode = some v := by
  have hnull : ∀ k ≠ "Null", ∀ j, ¬(Json.object [(k, j)]).word? mode = some "Null" :=
    fun k hk j => Json.word?_single_ne hk j mode
  cases v with
  | null =>
    rw [toTagged, hT.string]
    rfl
  | bool b =>
    rw [toTagged, hT.single, hT.sorted _ rfl, ofTagged?, if_neg (hnull "Bool" (by decide) _)]
    rfl
  | int n =>
    rw [toTagged, hT.single, hT.sorted _ rfl, ofTagged?, if_neg (hnull "Int" (by decide) _)]
    simp only [Json.member?, Json.int64?, int64?_toInt, Option.map_some]
  | float x =>
    have hfinite : x.isFinite = true := h
    rw [toTagged, if_pos hfinite, hT.single, hT.sorted _ rfl, ofTagged?,
      if_neg (hnull "Float" (by decide) _)]
    rfl
  | string s =>
    rw [toTagged, hT.single, hT.sorted _ rfl, ofTagged?, if_neg (hnull "String" (by decide) _)]
    rfl
  | bytes bs =>
    have hitems : (bs.map fun b => Json.int b.toNat).map T = bs.map fun b => Json.int b.toNat := by
      rw [List.map_map]
      exact List.map_congr_left fun b _ => hT.sorted _ rfl
    rw [toTagged, hT.single, hT.array, hitems, ofTagged?, if_neg (hnull "Bytes" (by decide) _)]
    simp only [Json.member?, Json.array?, Json.mapM_byte?, Option.bind_eq_bind, Option.bind_some,
      Option.pure_def]
  | json j =>
    have hsorted : j.sorted = j := h
    rw [toTagged, hT.single, hT.sorted j hsorted, ofTagged?, if_neg (hnull "Json" (by decide) _)]
    simp only [Json.member?, hsorted]
  | uuid u =>
    rw [toTagged, hT.single, hT.sorted _ rfl, ofTagged?, if_neg (hnull "Uuid" (by decide) _)]
    simp only [Json.member?, Json.string?, Uuid.ofText?_text, Option.bind_eq_bind,
      Option.bind_some, Option.pure_def]
  | dateTime t =>
    rw [toTagged, hT.single, hT.sorted _ rfl, ofTagged?, if_neg (hnull "DateTime" (by decide) _)]
    simp only [Json.member?, Json.string?, DateTime.ofText?_iso, Option.bind_eq_bind,
      Option.bind_some, Option.pure_def]
  | date d =>
    rw [toTagged, hT.single, hT.sorted _ rfl, ofTagged?, if_neg (hnull "Date" (by decide) _)]
    simp only [Json.member?, Json.string?, Date.ofText?_text, Option.bind_eq_bind,
      Option.bind_some, Option.pure_def]

end Value

end SqlTree
