import SqlTree.Proofs.Json.Parts
import SqlTree.Proofs.Tree.Equality

/-!
# Trees that are equal to one tree

Two nodes are equal if their kinds are and their fields agree, children with children
(`Node.beq_iff`).  So equality of trees is symmetric and transitive, as that of numbers is
(`Node.beq_symm`, `Node.beq_trans`); a tree with a number in it that is equal to none is not equal
to itself.
-/

namespace SqlTree

namespace Value

/-- Equal values are the same, but for numbers and documents. -/
theorem eq_or_of_beq {v w : Value} (h : (v == w) = true) :
    v = w ∨ (∃ x y, v = .float x ∧ w = .float y ∧ (x == y) = true) ∨
      ∃ j k, v = .json j ∧ w = .json k ∧ (j == k) = true := by
  cases v with
  | null =>
    cases w with
    | null => exact .inl rfl
    | _ => cases h
  | float x =>
    cases w with
    | float y => exact .inr (.inl ⟨x, y, rfl, rfl, h⟩)
    | _ => cases h
  | json j =>
    cases w with
    | json k => exact .inr (.inr ⟨j, k, rfl, rfl, h⟩)
    | _ => cases h
  | _ x =>
    cases w <;> first
      | cases h
      | exact .inl (congrArg _ (eq_of_beq h))

theorem beq_symm {v w : Value} (h : (v == w) = true) : (w == v) = true := by
  obtain rfl | ⟨x, y, rfl, rfl, hxy⟩ | ⟨j, k, rfl, rfl, hjk⟩ := eq_or_of_beq h
  · exact h
  · exact float_beq_symm hxy
  · exact Json.beq_symm hjk

theorem beq_trans {u v w : Value} (h : (u == v) = true) (h' : (v == w) = true) :
    (u == w) = true := by
  obtain rfl | ⟨x, y, rfl, rfl, hxy⟩ | ⟨j, k, rfl, rfl, hjk⟩ := eq_or_of_beq h
  · exact h'
  · cases w with
    | float z => exact float_beq_trans hxy h'
    | _ => cases h'
  · cases w with
    | json l => exact Json.beq_trans hjk h'
    | _ => cases h'

theorem beq_list_iff (vs ws : List Value) :
    (vs == ws) = true ↔ vs.Forall₂ (fun v w => (v == w) = true) ws := by
  induction vs generalizing ws with
  | nil => cases ws <;> simp
  | cons v vs ih =>
    cases ws with
    | nil => simp
    | cons w ws => rw [List.cons_beq_cons, Bool.and_eq_true_iff, ih, List.forall₂_cons]

end Value

namespace Field

variable {α β γ : Type}

/-- Fields of one form with equal contents, children being equal if `R` says so. -/
inductive Agree (R : α → β → Prop) : Field α → Field β → Prop
  | child {slot slot' : Slot} {a : α} {b : β} (h : R a b) : Agree R (.child slot a) (.child slot' b)
  | none {slot slot' : Slot} : Agree R (.optional slot none) (.optional slot' none)
  | some {slot slot' : Slot} {a : α} {b : β} (h : R a b) :
    Agree R (.optional slot (some a)) (.optional slot' (some b))
  | children {slot slot' : Slot} {as : List α} {bs : List β} (h : as.Forall₂ R bs) :
    Agree R (.children slot as) (.children slot' bs)
  | primitive {vs ws : List Value} (h : vs.Forall₂ (fun v w => (v == w) = true) ws) :
    Agree R (.items (.primitive vs)) (.items (.primitive ws))
  | expressions {as : List α} {bs : List β} (h : as.Forall₂ R bs) :
    Agree R (.items (.expressions as)) (.items (.expressions bs))
  | value {v w : Value} (h : (v == w) = true) : Agree R (.value v) (.value w)
  | plain {j k : Json} (h : (j == k) = true) : Agree R (.plain j) (.plain k)

theorem agreeAll_map_iff {p : α → β → Bool} {as : List α} {bs : List β} :
    agrees.agreeAll (as.map p) bs = true ↔ as.Forall₂ (fun a b => p a b = true) bs := by
  induction as generalizing bs with
  | nil => cases bs <;> simp [agrees.agreeAll]
  | cons a as ih =>
    cases bs with
    | nil => simp [agrees.agreeAll]
    | cons b bs => simp [agrees.agreeAll, ih]

theorem agrees_map_iff {p : α → β → Bool} {x : Field α} {y : Field β} :
    (x.map p).agrees y = true ↔ x.Agree (fun a b => p a b = true) y := by
  constructor
  · intro h
    cases x with
    | child slot a =>
      cases y with
      | child _ b => exact .child h
      | _ => cases h
    | optional slot o =>
      cases y with
      | optional _ o' =>
        cases o <;> cases o' <;> first
          | exact .none
          | exact .some h
          | cases h
      | _ => cases o <;> cases h
    | children slot as =>
      cases y with
      | children _ bs => exact .children (agreeAll_map_iff.mp h)
      | _ => cases h
    | items i =>
      cases y with
      | items i' =>
        cases i <;> cases i' <;> first
          | cases h
          | exact .primitive ((Value.beq_list_iff _ _).mp h)
          | exact .expressions (agreeAll_map_iff.mp h)
      | _ => cases i <;> cases h
    | value v =>
      cases y with
      | value w => exact .value h
      | _ => cases h
    | plain j =>
      cases y with
      | plain k => exact .plain h
      | _ => cases h
  · intro h
    cases h with
    | child h | some h | value h | plain h => exact h
    | none => rfl
    | children h | expressions h => exact agreeAll_map_iff.mpr h
    | primitive h => exact (Value.beq_list_iff _ _).mpr h

theorem Agree.symm_of_mem {R : α → β → Prop} {S : β → α → Prop} {x : Field α} {y : Field β}
    (hxy : x.Agree R y) (h : ∀ a ∈ x.toList, ∀ b, R a b → S b a) : y.Agree S x := by
  cases hxy with
  | child hab => exact .child (h _ List.mem_cons_self _ hab)
  | none => exact .none
  | some hab => exact .some (h _ List.mem_cons_self _ hab)
  | children hab => exact .children (forall₂_symm_of_mem hab h)
  | primitive hvw => exact .primitive (forall₂_symm_of_mem hvw fun _ _ _ => Value.beq_symm)
  | expressions hab => exact .expressions (forall₂_symm_of_mem hab h)
  | value hvw => exact .value (Value.beq_symm hvw)
  | plain hjk => exact .plain (Json.beq_symm hjk)

theorem Agree.trans_of_mem {R : α → β → Prop} {S : β → γ → Prop} {T : α → γ → Prop} {x : Field α}
    {y : Field β} {z : Field γ} (hxy : x.Agree R y) (hyz : y.Agree S z)
    (h : ∀ a ∈ x.toList, ∀ b c, R a b → S b c → T a c) : x.Agree T z := by
  cases hxy with
  | child hab =>
    cases hyz with
    | child hbc => exact .child (h _ List.mem_cons_self _ _ hab hbc)
  | none =>
    cases hyz with
    | none => exact .none
  | some hab =>
    cases hyz with
    | some hbc => exact .some (h _ List.mem_cons_self _ _ hab hbc)
  | children hab =>
    cases hyz with
    | children hbc => exact .children (forall₂_trans_of_mem hab hbc h)
  | primitive hvw =>
    cases hyz with
    | primitive hwx =>
      exact .primitive (forall₂_trans_of_mem hvw hwx fun _ _ _ _ => Value.beq_trans)
  | expressions hab =>
    cases hyz with
    | expressions hbc => exact .expressions (forall₂_trans_of_mem hab hbc h)
  | value hvw =>
    cases hyz with
    | value hwx => exact .value (Value.beq_trans hvw hwx)
  | plain hjk =>
    cases hyz with
    | plain hkl => exact .plain (Json.beq_trans hjk hkl)

end Field

namespace Node

theorem agree_iff {xs ys : List (String × Field Node)} :
    beq.agree (xs.map fun x => (x.1, x.2.map fun c => (c, c.beq))) ys = true ↔
      xs.Forall₂ (fun x y => x.2.Agree (fun c d => (c == d) = true) y.2) ys := by
  induction xs generalizing ys with
  | nil => cases ys <;> simp [beq.agree]
  | cons x xs ih =>
    cases ys with
    | nil => simp [beq.agree]
    | cons y ys =>
      rw [List.map_cons, beq.agree, Bool.and_eq_true_iff, Field.map_map, Field.agrees_map_iff, ih,
        List.forall₂_cons]
      rfl

/-- Equal nodes are of one kind and agree in every field. -/
theorem beq_iff {s t : Shape Node} : ((⟨s⟩ : Node) == ⟨t⟩) = true ↔ s.kind = t.kind ∧
    s.fields.Forall₂ (fun x y => x.2.Agree (fun c d => (c == d) = true) y.2) t.fields := by
  show beq ⟨s⟩ ⟨t⟩ = true ↔ _
  rw [beq_mk, Bool.and_eq_true_iff, agree_iff, beq_iff_eq]

theorem mem_children_of_mem_fields {s : Shape Node} {x : String × Field Node} (hx : x ∈ s.fields)
    {c : Node} (hc : c ∈ x.2.toList) : c ∈ s.children :=
  List.mem_flatMap.mpr ⟨x, hx, hc⟩

theorem beq_symm {m n : Node} (h : (m == n) = true) : (n == m) = true := by
  induction m using childrenInduction generalizing n with
  | h s ih =>
    obtain ⟨t⟩ := n
    obtain ⟨hkind, hfields⟩ := beq_iff.mp h
    refine beq_iff.mpr ⟨hkind.symm, forall₂_symm_of_mem hfields fun x hx y hxy => ?_⟩
    exact hxy.symm_of_mem fun c hc d => ih c (mem_children_of_mem_fields hx hc)

theorem beq_trans {l m n : Node} (h : (l == m) = true) (h' : (m == n) = true) :
    (l == n) = true := by
  induction l using childrenInduction generalizing m n with
  | h s ih =>
    obtain ⟨t⟩ := m
    obtain ⟨u⟩ := n
    obtain ⟨hkind, hfields⟩ := beq_iff.mp h
    obtain ⟨hkind', hfields'⟩ := beq_iff.mp h'
    refine beq_iff.mpr ⟨hkind.trans hkind', forall₂_trans_of_mem hfields hfields' ?_⟩
    intro x hx y z hxy hyz
    exact hxy.trans_of_mem hyz fun c hc _ _ => ih c (mem_children_of_mem_fields hx hc)

end Node

end SqlTree
