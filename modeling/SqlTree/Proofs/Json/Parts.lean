import SqlTree.Json.Basic
import Mathlib.Data.List.Forall2

/-!
# Documents and their parts

What is true of documents follows from their parts up (`Json.partsInduction`).  Equality of
documents goes through their parts as well, down to numbers, of which some are equal to none.  So
documents that are equal to one document are equal (`Json.beq_symm`, `Json.beq_trans`), though a
document need not be equal to itself.
-/

namespace SqlTree

section Lists

variable {α β γ : Type} {as : List α} {bs : List β} {cs : List γ}

theorem forall₂_symm_of_mem {R : α → β → Prop} {S : β → α → Prop} (hr : as.Forall₂ R bs)
    (h : ∀ a ∈ as, ∀ b, R a b → S b a) : bs.Forall₂ S as := by
  induction hr with
  | nil => exact .nil
  | cons hab _ ih =>
    exact .cons (h _ List.mem_cons_self _ hab) (ih fun a ha => h a (List.mem_cons_of_mem _ ha))

theorem forall₂_trans_of_mem {R : α → β → Prop} {S : β → γ → Prop} {T : α → γ → Prop}
    (hr : as.Forall₂ R bs) (hs : bs.Forall₂ S cs) (h : ∀ a ∈ as, ∀ b c, R a b → S b c → T a c) :
    as.Forall₂ T cs := by
  induction hr generalizing cs with
  | nil => cases hs; exact .nil
  | cons hab _ ih =>
    cases hs with
    | cons hbc hrest =>
      exact .cons (h _ List.mem_cons_self _ _ hab hbc)
        (ih hrest fun a ha => h a (List.mem_cons_of_mem _ ha))

end Lists

section Numbers

open Float.Model

/-- A number without the sign of zero, and nothing for what is no number. -/
def unsignedZero : UnpackedFloat → Option UnpackedFloat
  | .notANumber => none
  | .zero _ => some (.zero .positive)
  | x => some x

theorem compare_finite_iff {s t : UnpackedFloat.Sign} {m n : Nat} {e f : Int} {hm : 0 < m}
    {hn : 0 < n} : (UnpackedFloat.finite s m e hm).compare (.finite t n f hn) = some .eq ↔
      UnpackedFloat.finite s m e hm = .finite t n f hn := by
  constructor
  · intro h
    have hparts : s = t ∧ (compare e f).then (compare m n) = .eq := by
      cases s <;> cases t
      · exact ⟨rfl, Ordering.swap_inj.mp (Option.some.inj h)⟩
      · cases h
      · cases h
      · exact ⟨rfl, Option.some.inj h⟩
    obtain ⟨rfl, hparts⟩ := hparts
    obtain ⟨he, hm⟩ := Ordering.then_eq_eq.mp hparts
    obtain rfl := Std.LawfulEqOrd.eq_of_compare he
    obtain rfl := Std.LawfulEqOrd.eq_of_compare hm
    rfl
  · rintro ⟨⟩
    have hparts : (compare e e).then (compare m m) = .eq :=
      Ordering.then_eq_eq.mpr ⟨Std.ReflOrd.compare_self, Std.ReflOrd.compare_self⟩
    cases s with
    | negative => exact congrArg (fun o => some o.swap) hparts
    | positive => exact congrArg some hparts

theorem unpacked_beq_iff (x y : UnpackedFloat) :
    x.beq y = true ↔ ∃ z, unsignedZero x = some z ∧ unsignedZero y = some z := by
  have hbeq : x.beq y = true ↔ x.compare y = some .eq := beq_iff_eq
  rw [hbeq]
  constructor
  · intro h
    cases x with
    | notANumber => cases h
    | infinity s =>
      rcases y with t | _ | _ | _
      · cases s <;> cases t <;> first | exact ⟨_, rfl, rfl⟩ | cases h
      all_goals cases s <;> cases h
    | zero s =>
      rcases y with t | _ | _ | t
      · cases t <;> cases h
      · cases h
      · exact ⟨_, rfl, rfl⟩
      · cases t <;> cases h
    | finite s m e hm =>
      rcases y with t | _ | _ | _
      · cases t <;> cases h
      · cases h
      · cases s <;> cases h
      · exact ⟨_, rfl, compare_finite_iff.mp h ▸ rfl⟩
  · rintro ⟨z, hx, hy⟩
    cases x with
    | notANumber => cases hx
    | infinity s =>
      cases hx
      cases y <;> cases hy
      cases s <;> rfl
    | zero s =>
      cases hx
      cases y <;> cases hy
      rfl
    | finite s m e hm =>
      cases hx
      cases y <;> cases hy
      exact compare_finite_iff.mpr rfl

theorem float_beq_iff (x y : Float) : (x == y) = true ↔
    ∃ z, unsignedZero x.toModel.unpack = some z ∧ unsignedZero y.toModel.unpack = some z :=
  unpacked_beq_iff _ _

theorem float_beq_symm {x y : Float} (h : (x == y) = true) : (y == x) = true := by
  obtain ⟨z, hx, hy⟩ := (float_beq_iff x y).mp h
  exact (float_beq_iff y x).mpr ⟨z, hy, hx⟩

theorem float_beq_trans {x y z : Float} (h : (x == y) = true) (h' : (y == z) = true) :
    (x == z) = true := by
  obtain ⟨a, hx, hy⟩ := (float_beq_iff x y).mp h
  obtain ⟨b, hy', hz⟩ := (float_beq_iff y z).mp h'
  rw [hy] at hy'
  cases hy'
  exact (float_beq_iff x z).mpr ⟨a, hx, hz⟩

end Numbers

namespace Json

/-- Documents without parts. -/
def IsLeaf : Json → Prop
  | .array _ => False
  | .object _ => False
  | _ => True

@[elab_as_elim]
theorem partsInduction {P : Json → Prop} (leaf : ∀ j, j.IsLeaf → P j)
    (array : ∀ js, (∀ j ∈ js, P j) → P (.array js))
    (object : ∀ ms, (∀ m ∈ ms, P m.2) → P (.object ms)) : ∀ j, P j
  | .array js => array js fun j _ => partsInduction leaf array object j
  | .object ms => object ms fun m _ => partsInduction leaf array object m.2
  | .null => leaf _ trivial
  | .bool _ => leaf _ trivial
  | .int _ => leaf _ trivial
  | .float _ => leaf _ trivial
  | .string _ => leaf _ trivial
termination_by j => sizeOf j
decreasing_by
  · have := List.sizeOf_lt_of_mem ‹_›
    simp only [Json.array.sizeOf_spec]
    omega
  · have := List.sizeOf_lt_of_mem ‹_›
    have : sizeOf m = 1 + sizeOf m.1 + sizeOf m.2 := rfl
    simp only [Json.object.sizeOf_spec]
    omega

theorem beqItems_iff (as bs : List Json) :
    beqItems as bs = true ↔ as.Forall₂ (fun a b => (a == b) = true) bs := by
  induction as generalizing bs with
  | nil => cases bs <;> simp [beqItems]
  | cons a as ih =>
    cases bs with
    | nil => simp [beqItems]
    | cons b bs => rw [beqItems, Bool.and_eq_true_iff, ih, List.forall₂_cons]; rfl

theorem beqMembers_iff (as bs : List (String × Json)) : beqMembers as bs = true ↔
    as.Forall₂ (fun a b => a.1 = b.1 ∧ (a.2 == b.2) = true) bs := by
  induction as generalizing bs with
  | nil => cases bs <;> simp [beqMembers]
  | cons a as ih =>
    cases bs with
    | nil => simp [beqMembers]
    | cons b bs =>
      rw [beqMembers, Bool.and_eq_true_iff, Bool.and_eq_true_iff, ih, List.forall₂_cons, beq_iff_eq]
      rfl

/-- Documents without parts are equal if they are the same, or numbers that are equal. -/
theorem eq_or_float_of_beq {a b : Json} (ha : a.IsLeaf) (h : (a == b) = true) :
    a = b ∨ ∃ x y, a = .float x ∧ b = .float y ∧ (x == y) = true := by
  cases a with
  | array | object => exact ha.elim
  | null =>
    cases b with
    | null => exact .inl rfl
    | _ => cases h
  | bool x =>
    cases b with
    | bool y => exact .inl (congrArg _ (eq_of_beq (a := x) (b := y) h))
    | _ => cases h
  | int x =>
    cases b with
    | int y => exact .inl (congrArg _ (eq_of_beq (a := x) (b := y) h))
    | _ => cases h
  | string x =>
    cases b with
    | string y => exact .inl (congrArg _ (eq_of_beq (a := x) (b := y) h))
    | _ => cases h
  | float x =>
    cases b with
    | float y => exact .inr ⟨x, y, rfl, rfl, h⟩
    | _ => cases h

theorem beq_symm {a b : Json} (h : (a == b) = true) : (b == a) = true := by
  induction a using partsInduction generalizing b with
  | leaf a ha =>
    obtain rfl | ⟨x, y, rfl, rfl, hxy⟩ := eq_or_float_of_beq ha h
    · exact h
    · exact float_beq_symm hxy
  | array as ih =>
    cases b with
    | array bs =>
      exact (beqItems_iff bs as).mpr
        (forall₂_symm_of_mem ((beqItems_iff as bs).mp h) fun a ha b => ih a ha)
    | _ => cases h
  | object as ih =>
    cases b with
    | object bs =>
      exact (beqMembers_iff bs as).mpr (forall₂_symm_of_mem ((beqMembers_iff as bs).mp h)
        fun a ha b hab => ⟨hab.1.symm, ih a ha hab.2⟩)
    | _ => cases h

theorem beq_trans {a b c : Json} (h : (a == b) = true) (h' : (b == c) = true) :
    (a == c) = true := by
  induction a using partsInduction generalizing b c with
  | leaf a ha =>
    obtain rfl | ⟨x, y, rfl, rfl, hxy⟩ := eq_or_float_of_beq ha h
    · exact h'
    · cases c with
      | float z => exact float_beq_trans hxy h'
      | _ => cases h'
  | array as ih =>
    cases b with
    | array bs =>
      cases c with
      | array cs =>
        exact (beqItems_iff as cs).mpr (forall₂_trans_of_mem ((beqItems_iff as bs).mp h)
          ((beqItems_iff bs cs).mp h') fun a ha b c => ih a ha)
      | _ => cases h'
    | _ => cases h
  | object as ih =>
    cases b with
    | object bs =>
      cases c with
      | object cs =>
        exact (beqMembers_iff as cs).mpr (forall₂_trans_of_mem ((beqMembers_iff as bs).mp h)
          ((beqMembers_iff bs cs).mp h')
          fun a ha b c hab hbc => ⟨hab.1.trans hbc.1, ih a ha hab.2 hbc.2⟩)
      | _ => cases h'
    | _ => cases h

end Json

end SqlTree
