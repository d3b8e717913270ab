import SqlTree.Proofs.Tree.Rewriting

/-!
# Equal trees

Equality of trees compares kinds and then fields, and floating-point numbers as numbers.  So equal
trees are the same tree but for the values in them (`Node.bare_of_beq`).
-/

namespace SqlTree

/-- Words that are read back from their names. -/
class Recalled (e : Type) [Named e] : Prop where
  ofName?_name : ∀ x : e, Named.ofName? (Named.name x) = some x

instance : Recalled Operator := ⟨fun x => by cases x <;> decide⟩

instance : Recalled JoinType := ⟨fun x => by cases x <;> decide⟩

instance : Recalled OrderDirection := ⟨fun x => by cases x <;> decide⟩

instance : Recalled NullsOrder := ⟨fun x => by cases x <;> decide⟩

instance : Recalled SetOperator := ⟨fun x => by cases x <;> decide⟩

instance : Recalled SelectModifier := ⟨fun x => by cases x <;> decide⟩

instance : Recalled FetchModifier := ⟨fun x => by cases x <;> decide⟩

instance : Recalled TopModifier := ⟨fun x => by cases x <;> decide⟩

instance : Recalled ReferentialAction := ⟨fun x => by cases x <;> decide⟩

instance : Recalled OnCommitAction := ⟨fun x => by cases x <;> decide⟩

/-- Words with different names. -/
class Distinct (e : Type) [Named e] : Prop where
  inj : ∀ x y : e, Named.name x = Named.name y → x = y

instance {e : Type} [Named e] [Recalled e] : Distinct e where
  inj x y h := Option.some.inj <| by
    rw [← Recalled.ofName?_name x, h, Recalled.ofName?_name y]

namespace Field

variable {α : Type}

/-- Fields with the same children, but for values. -/
def Same : Field α → Field α → Prop
  | .child _ a, .child _ b => a = b
  | .optional _ a, .optional _ b => a = b
  | .children _ as, .children _ bs => as = bs
  | .items (.primitive _), .items (.primitive _) => True
  | .items (.expressions as), .items (.expressions bs) => as = bs
  | .value _, .value _ => True
  | .plain j, .plain k => (j == k) = true
  | _, _ => False

@[simp] theorem same_child (s t : Slot) (a b : α) : (child s a).Same (.child t b) ↔ a = b := .rfl

@[simp] theorem same_optional (s t : Slot) (a b : Option α) :
    (optional s a).Same (.optional t b) ↔ a = b := .rfl

@[simp] theorem same_children (s t : Slot) (as bs : List α) :
    (children s as).Same (.children t bs) ↔ as = bs := .rfl

@[simp] theorem same_value (v w : Value) : (value v : Field α).Same (.value w) := trivial

@[simp] theorem same_text (s t : String) : (text s : Field α).Same (.text t) ↔ s = t := by
  show (s == t) = true ↔ s = t
  exact beq_iff_eq

@[simp] theorem same_flag (b c : Bool) : (flag b : Field α).Same (.flag c) ↔ b = c := by
  show (b == c) = true ↔ b = c
  exact beq_iff_eq

@[simp] theorem same_word {e : Type} [Named e] [Distinct e] (x y : e) :
    (word x : Field α).Same (word y) ↔ x = y :=
  (same_text _ _).trans ⟨Distinct.inj x y, congrArg _⟩

@[simp] theorem same_optionalWord {e : Type} [Named e] [Distinct e] (x y : Option e) :
    (optionalWord x : Field α).Same (optionalWord y) ↔ x = y := by
  cases x with
  | none => cases y <;> simp [optionalWord, word, Same] <;> rfl
  | some x =>
    cases y with
    | none => simp [optionalWord, word, Same]; rfl
    | some y => simp [optionalWord]

@[simp] theorem same_optionalFlag (b c : Option Bool) :
    (optionalFlag b : Field α).Same (optionalFlag c) ↔ b = c := by
  cases b with
  | none => cases c <;> simp [optionalFlag, flag, Same] <;> rfl
  | some b =>
    cases c with
    | none => simp [optionalFlag, flag, Same]; rfl
    | some c => simp [optionalFlag]

@[simp] theorem same_optionalText (s t : Option String) :
    (optionalText s : Field α).Same (optionalText t) ↔ s = t := by
  cases s with
  | none => cases t <;> simp [optionalText, text, Same] <;> rfl
  | some s =>
    cases t with
    | none => simp [optionalText, text, Same]; rfl
    | some t => simp [optionalText]

@[simp] theorem same_texts (ss ts : List String) :
    (texts ss : Field α).Same (.texts ts) ↔ ss = ts := by
  show Json.beqItems _ _ = true ↔ _
  induction ss generalizing ts with
  | nil => cases ts <;> simp [Json.beqItems]
  | cons s ss ih =>
    cases ts with
    | nil => simp [Json.beqItems]
    | cons t ts => simp [Json.beqItems, Json.beq, ih]

/-- Fields of two nodes, each the same as the other. -/
def SameAll : List (String × Field α) → List (String × Field α) → Prop
  | [], [] => True
  | (_, f) :: fs, (_, g) :: gs => f.Same g ∧ SameAll fs gs
  | _, _ => False

end Field

namespace Node

/-- A node without its values. -/
def bare : Node → Node
  | ⟨.value _ immediate⟩ => ⟨.value .null immediate⟩
  | ⟨.valueList (.primitive _)⟩ => ⟨.valueList (.primitive [])⟩
  | n => n

theorem kind_bare (n : Node) : n.bare.kind = n.kind := by
  unfold bare
  split <;> rfl

end Node

namespace Shape

variable {α β : Type}

theorem ctorIdx_kind (s : Shape α) : s.kind.ctorIdx = s.ctorIdx := by
  cases s <;> rfl

/-- Shapes of one kind are of one form. -/
theorem ctorIdx_eq {s : Shape α} {t : Shape β} (h : s.kind = t.kind) :
    s.ctorIdx = t.ctorIdx := by
  rw [← ctorIdx_kind, h, ctorIdx_kind]

theorem bare_eq_of_sameAll {s t : Shape Node} (hk : s.kind = t.kind)
    (h : Field.SameAll s.fields t.fields) : Node.bare ⟨s⟩ = Node.bare ⟨t⟩ := by
  have hi := ctorIdx_eq hk
  clear hk
  cases s
  all_goals
    refine Shape.ctorElim (motive := fun t => Field.SameAll _ t.fields →
      Node.bare ⟨_⟩ = Node.bare ⟨t⟩) _ t hi ?_ h
    refine ⟨?_⟩
    clear h hi t
  case valueList i =>
    intro i' h
    cases i <;> cases i' <;> simp_all [fields, Field.SameAll, Field.Same, Node.bare]
  case value v b =>
    intro v' b' h
    simp_all [fields, Field.SameAll, Node.bare]
  case selectAll | defaultInsertValue => exact fun _ => rfl
  case aggregateFunction p | onConflict p | selectQuery p | insertQuery p | updateQuery p |
      deleteQuery p | mergeQuery p | createTable p | columnDefinition p | generated p |
      references p | createIndex p | createView p | alterTable p | alterColumn p =>
    intro q h
    cases p
    cases q
    simp_all [fields, Field.SameAll, Aggregate.fields, OnConflict.fields, Select.fields,
      Insert.fields, Update.fields, Delete.fields, Merge.fields, CreateTable.fields,
      ColumnDefinition.fields, Generated.fields, References.fields, CreateIndex.fields,
      CreateView.fields, AlterTable.fields, AlterColumn.fields]
  all_goals
    intros
    rename_i h
    simp_all [fields, Field.SameAll]

end Shape

namespace Field

variable {α β γ : Type}

theorem map_map (f : α → β) (g : β → γ) (x : Field α) :
    (x.map f).map g = x.map fun a => g (f a) := by
  cases x with
  | optional slot o => cases o <;> rfl
  | children slot as => simp [map, Function.comp_def]
  | items i => cases i <;> simp [map, Function.comp_def]
  | _ => rfl

theorem eq_of_agreeAll {g : α → γ} {g' : β → γ} {p : α → β → Bool} {as : List α}
    (h : ∀ a ∈ as, ∀ b, p a b = true → g a = g' b) {bs : List β}
    (hagree : agrees.agreeAll (as.map p) bs = true) : as.map g = bs.map g' := by
  induction as generalizing bs with
  | nil =>
    cases bs with
    | nil => rfl
    | cons b bs => cases hagree
  | cons a as ih =>
    cases bs with
    | nil => cases hagree
    | cons b bs =>
      obtain ⟨hb, hbs⟩ := Bool.and_eq_true_iff.mp hagree
      rw [List.map_cons, List.map_cons, h a List.mem_cons_self b hb,
        ih (fun a ha => h a (List.mem_cons_of_mem _ ha)) hbs]

/-- Fields that agree are the same after maps that agree on the children. -/
theorem same_of_agrees {g : α → γ} {g' : β → γ} {p : α → β → Bool} {x : Field α} {y : Field β}
    (h : ∀ a ∈ x.toList, ∀ b, p a b = true → g a = g' b) (hagree : (x.map p).agrees y = true) :
    (x.map g).Same (y.map g') := by
  cases x with
  | child slot a =>
    cases y with
    | child _ b => exact h a List.mem_cons_self b hagree
    | _ => cases hagree
  | optional slot o =>
    cases y with
    | optional _ o' =>
      cases o with
      | none =>
        cases o' with
        | none => rfl
        | some b => cases hagree
      | some a =>
        cases o' with
        | none => cases hagree
        | some b => exact congrArg some (h a List.mem_cons_self b hagree)
    | _ => cases o <;> cases hagree
  | children slot as =>
    cases y with
    | children _ bs => exact eq_of_agreeAll h hagree
    | _ => cases hagree
  | items i =>
    cases y with
    | items i' =>
      cases i with
      | primitive vs =>
        cases i' with
        | primitive ws => exact trivial
        | expressions bs => cases hagree
      | expressions as =>
        cases i' with
        | primitive ws => cases hagree
        | expressions bs => exact eq_of_agreeAll h hagree
    | _ => cases i <;> cases hagree
  | value v =>
    cases y with
    | value w => exact trivial
    | _ => cases hagree
  | plain j =>
    cases y with
    | plain k => exact hagree
    | _ => cases hagree

/-- So are lists of fields. -/
theorem sameAll_of_agree {g : Node → γ} {xs ys : List (String × Field Node)}
    (h : ∀ x ∈ xs, ∀ c ∈ x.2.toList, ∀ d, c.beq d = true → g c = g d)
    (hagree : Node.beq.agree (xs.map fun x => (x.1, x.2.map fun c => (c, c.beq))) ys = true) :
    SameAll (xs.map fun x => (x.1, x.2.map g)) (ys.map fun x => (x.1, x.2.map g)) := by
  induction xs generalizing ys with
  | nil =>
    cases ys with
    | nil => exact trivial
    | cons y ys => cases hagree
  | cons x xs ih =>
    cases ys with
    | nil => cases hagree
    | cons y ys =>
      obtain ⟨hx, hxs⟩ := Bool.and_eq_true_iff.mp hagree
      rw [Field.map_map] at hx
      exact ⟨same_of_agrees (h x List.mem_cons_self) hx,
        ih (fun x hx => h x (List.mem_cons_of_mem _ hx)) hxs⟩

end Field

namespace Node

theorem beq_mk (s t : Shape Node) : beq ⟨s⟩ ⟨t⟩ = (s.kind == t.kind &&
    beq.agree (s.fields.map fun x => (x.1, x.2.map fun c => (c, c.beq))) t.fields) := by
  rw [beq, para_mk, Shape.fields_map]
  rfl

/-- Equal trees are the same but for their values. -/
theorem bare_of_beq {m n : Node} (h : (m == n) = true) : m.rewrite bare = n.rewrite bare := by
  induction m using childrenInduction generalizing n with
  | h s ih =>
    obtain ⟨t⟩ := n
    have hbeq : beq ⟨s⟩ ⟨t⟩ = true := h
    rw [beq_mk, Bool.and_eq_true_iff] at hbeq
    obtain ⟨hkind, hagree⟩ := hbeq
    rw [rewrite_mk, rewrite_mk]
    refine Shape.bare_eq_of_sameAll ?_ ?_
    · rw [Shape.kind_map, Shape.kind_map]
      exact eq_of_beq hkind
    · rw [Shape.fields_map, Shape.fields_map]
      refine Field.sameAll_of_agree (fun x hx c hc d hd => ?_) hagree
      exact ih c (List.mem_flatMap.mpr ⟨x, hx, hc⟩) hd

end Node

end SqlTree
