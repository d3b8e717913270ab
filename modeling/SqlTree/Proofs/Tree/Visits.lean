import SqlTree.Proofs.Tree.Each
import Mathlib.Tactic.Choose

/-!
# Visiting a shape

A shape is visited by visiting the list of its children, each with the position it stands in, and
making a shape of the results (`Shape.follows`).  So a visit that changes nothing but the children
is a map, a visit that may fail succeeds only if it succeeds at every child, and two maps that agree
on the children are equal.
-/

namespace SqlTree

/-- The children in a field, each with the position it stands in. -/
def Field.slotted {α : Type} : Field α → List (Slot × α)
  | .child s a => [(s, a)]
  | .optional s a => a.toList.map (s, ·)
  | .children s as => as.map (s, ·)
  | .items (.expressions as) => as.map (Slot.any, ·)
  | _ => []

/-- The children in the order in which they are written, each with the position it stands in. -/
def Shape.slotted {α : Type} (s : Shape α) : List (Slot × α) := s.fields.flatMap (·.2.slotted)

namespace Field

variable {α β : Type}

@[simp] theorem slotted_word {e : Type} [Named e] (x : e) : (word x : Field α).slotted = [] := rfl

@[simp] theorem slotted_optionalWord {e : Type} [Named e] (x : Option e) :
    (optionalWord x : Field α).slotted = [] := by
  cases x <;> rfl

@[simp] theorem slotted_flag (b : Bool) : (flag b : Field α).slotted = [] := rfl

@[simp] theorem slotted_optionalFlag (b : Option Bool) :
    (optionalFlag b : Field α).slotted = [] := by
  cases b <;> rfl

@[simp] theorem slotted_text (s : String) : (text s : Field α).slotted = [] := rfl

@[simp] theorem slotted_optionalText (s : Option String) :
    (optionalText s : Field α).slotted = [] := by
  cases s <;> rfl

@[simp] theorem slotted_texts (ss : List String) : (texts ss : Field α).slotted = [] := rfl

@[simp] theorem slotted_value (v : Value) : (value v : Field α).slotted = [] := rfl

@[simp] theorem slotted_child (s : Slot) (a : α) : (child s a).slotted = [(s, a)] := rfl

@[simp] theorem slotted_optional (s : Slot) (a : Option α) :
    (optional s a).slotted = a.toList.map (s, ·) := rfl

@[simp] theorem slotted_children (s : Slot) (as : List α) :
    (children s as).slotted = as.map (s, ·) := rfl

theorem slotted_map (f : α → β) (x : Field α) :
    (x.map f).slotted = x.slotted.map fun p => (p.1, f p.2) := by
  cases x with
  | optional s a => cases a <;> rfl
  | children s as => simp [Field.map]
  | items i => cases i <;> simp [Field.map, slotted]
  | _ => rfl

theorem map_snd_slotted (x : Field α) : x.slotted.map Prod.snd = x.toList := by
  cases x with
  | optional s a => cases a <;> rfl
  | children s as => simp [toList, Function.comp_def]
  | items i => cases i <;> simp [slotted, toList, Function.comp_def]
  | _ => rfl

end Field

/-- The visit `t` is made by visiting a list in its order. -/
def Follows {α β γ : Type} (l : List (Slot × α))
    (t : ∀ (m : Type → Type) [Monad m], (Slot → α → m β) → m γ) : Prop :=
  ∃ k : List β → γ, ∀ (m : Type → Type) [Monad m] [LawfulMonad m] (f : Slot → α → m β),
    t m f = k <$> l.mapM fun p => f p.1 p.2

/-- What comes after a visited list may count on the number of results. -/
theorem mapM_bind_congr {m : Type → Type} [Monad m] [LawfulMonad m] {α β γ : Type} (f : α → m β)
    (l : List α) (k k' : List β → m γ) (h : ∀ bs, bs.length = l.length → k bs = k' bs) :
    l.mapM f >>= k = l.mapM f >>= k' := by
  induction l generalizing k k' with
  | nil => simp [h []]
  | cons a l ih =>
    simp only [List.mapM_cons, bind_assoc, pure_bind]
    apply bind_congr
    intro b
    apply ih
    intro bs hbs
    exact h (b :: bs) (by simp [hbs])

theorem mapM_eq_pure {m : Type → Type} [Monad m] [LawfulMonad m] {α β : Type} {f : α → m β}
    {g : α → β} (l : List α) (h : ∀ a ∈ l, f a = pure (g a)) : l.mapM f = pure (l.map g) := by
  induction l with
  | nil => simp
  | cons a l ih =>
    simp [h a (by simp), ih fun x hx => h x (List.mem_cons_of_mem a hx)]

theorem exists_of_mapM_eq_ok {ε α β : Type} {f : α → ExceptT ε Id β} {l : List α} {bs : List β}
    (h : l.mapM f = Except.ok bs) : ∀ a ∈ l, ∃ b, f a = Except.ok b := by
  induction l generalizing bs with
  | nil => simp
  | cons a l ih =>
    rw [List.mapM_cons] at h
    cases ha : f a with
    | error x => rw [ha] at h; cases h
    | ok b =>
      cases hl : l.mapM f with
      | error x => rw [ha, hl] at h; cases h
      | ok bs' => simpa [ha] using ih hl

namespace Follows

variable {α β γ δ : Type}

theorem result (c : γ) : Follows (α := α) (β := β) [] fun _ _ _ => pure c :=
  ⟨fun _ => c, fun _ _ _ _ => by simp⟩

theorem child [Inhabited β] (slot : Slot) (a : α) :
    Follows (β := β) [(slot, a)] fun _ _ f => f slot a :=
  ⟨fun bs => bs.headD default, fun _ _ _ _ => by simp⟩

theorem list (slot : Slot) (as : List α) :
    Follows (β := β) (as.map (slot, ·)) fun _ _ f => as.mapM (f slot) :=
  ⟨fun bs => bs, fun _ _ _ _ => by simp [List.mapM_map, Function.comp_def]⟩

theorem option (slot : Slot) (o : Option α) :
    Follows (β := β) (o.toList.map (slot, ·)) fun _ _ f => o.mapM (f slot) := by
  cases o with
  | none => exact ⟨fun _ => none, fun _ _ _ _ => by simp⟩
  | some a => exact ⟨fun bs => bs.head?, fun _ _ _ _ => by simp⟩

theorem bind {l l' : List (Slot × α)}
    {t : ∀ (m : Type → Type) [Monad m], (Slot → α → m β) → m γ}
    {u : γ → ∀ (m : Type → Type) [Monad m], (Slot → α → m β) → m δ}
    (ht : Follows l t) (hu : ∀ c, Follows l' (u c)) :
    Follows (l ++ l') fun m _ f => t m f >>= fun c => u c m f := by
  obtain ⟨k, hk⟩ := ht
  choose k' hk' using hu
  refine ⟨fun bs => k' (k (bs.take l.length)) (bs.drop l.length), fun m _ _ f => ?_⟩
  simp only [hk, hk', List.mapM_append, map_eq_pure_bind, bind_assoc, pure_bind]
  apply mapM_bind_congr
  intro bs hbs
  simp [← hbs]

theorem cast {l l' : List (Slot × α)}
    {t : ∀ (m : Type → Type) [Monad m], (Slot → α → m β) → m γ}
    (ht : Follows l t) (h : l = l') : Follows l' t := h ▸ ht

theorem items [Inhabited β] (i : ListItems α) :
    Follows (β := β) (Field.slotted (.items i)) fun _ _ f => i.traverse f := by
  cases i with
  | primitive vs => exact result _
  | expressions as => exact (bind (list .any as) fun _ => result _).cast (by simp [Field.slotted])

end Follows

namespace Shape

variable {α β : Type}

theorem slotted_map (f : α → β) (s : Shape α) :
    (s.map f).slotted = s.slotted.map fun p => (p.1, f p.2) := by
  simp only [slotted, fields_map, List.flatMap_map, List.map_flatMap, Field.slotted_map]

theorem map_snd_slotted (s : Shape α) : s.slotted.map Prod.snd = s.children := by
  simp only [slotted, children, List.map_flatMap, Field.map_snd_slotted]

theorem mem_children_of_mem_slotted {s : Shape α} {p : Slot × α} (h : p ∈ s.slotted) :
    p.2 ∈ s.children := by
  rw [← map_snd_slotted]
  exact List.mem_map_of_mem h

theorem mem_slotted_of_usingJoin {p : Merge α} {j : α} (h : p.usingJoin = some j) :
    (Slot.only .join, j) ∈ (Shape.mergeQuery p).slotted := by
  simp [slotted, fields, Merge.fields, h]

/-- A shape is visited by visiting its children in the order in which they are written. -/
theorem follows [Inhabited β] (s : Shape α) :
    Follows (β := β) s.slotted fun _ _ f => s.traverse f := by
  -- `apply` finds the list from the steps of the traversal; that it is the list of children is
  -- read off the fields afterwards.
  cases s
  all_goals
    apply Follows.cast
    · simp only [traverse, Aggregate.traverse, OnConflict.traverse, Select.traverse,
        Insert.traverse, Update.traverse, Delete.traverse, Merge.traverse, CreateTable.traverse,
        ColumnDefinition.traverse, Generated.traverse, References.traverse, CreateIndex.traverse,
        CreateView.traverse, AlterTable.traverse, AlterColumn.traverse]
      repeat' first
        | intro _
        | apply Follows.result
        | apply Follows.child
        | apply Follows.option
        | apply Follows.list
        | apply Follows.items
        | apply Follows.bind
    · simp [slotted, fields, Aggregate.fields, OnConflict.fields, Select.fields, Insert.fields,
        Update.fields, Delete.fields, Merge.fields, CreateTable.fields, ColumnDefinition.fields,
        Generated.fields, References.fields, CreateIndex.fields, CreateView.fields,
        AlterTable.fields, AlterColumn.fields]

/-- The shape that a visit makes of the results at the children. -/
theorem exists_traverse_eq [Inhabited β] (s : Shape α) :
    ∃ k : List β → Shape β, ∀ (m : Type → Type) [Monad m] [LawfulMonad m] (f : Slot → α → m β),
      s.traverse f = k <$> s.slotted.mapM fun p => f p.1 p.2 := s.follows

/-- A visit that does nothing but replace each child is a map. -/
theorem traverse_eq_pure [Inhabited β] {m : Type → Type} [Monad m] [LawfulMonad m]
    {f : Slot → α → m β} {g : α → β} (s : Shape α)
    (h : ∀ p ∈ s.slotted, f p.1 p.2 = pure (g p.2)) : s.traverse f = pure (s.map g) := by
  obtain ⟨k, hk⟩ := s.exists_traverse_eq (β := β)
  have hmap : s.map g = k (s.slotted.map fun p => g p.2) := by
    have he := hk Id fun _ a => pure (g a)
    rw [List.mapM_pure] at he
    exact he
  rw [hk, mapM_eq_pure _ h, map_pure, hmap]

/-- Two maps that agree on the children are equal. -/
theorem map_congr [Inhabited β] {f g : α → β} (s : Shape α)
    (h : ∀ a ∈ s.children, f a = g a) : s.map f = s.map g := by
  have hp := s.traverse_eq_pure (m := Id) (f := fun _ a => pure (f a)) (g := g)
    fun p hp => congrArg pure (h p.2 (mem_children_of_mem_slotted hp))
  exact hp

/-- A visit that may fail and did not has succeeded at every child. -/
theorem exists_of_traverse_eq_ok [Inhabited β] {ε : Type} {f : Slot → α → ExceptT ε Id β}
    {s : Shape α} {t : Shape β} (h : s.traverse f = Except.ok t) :
    ∀ p ∈ s.slotted, ∃ b, f p.1 p.2 = Except.ok b := by
  obtain ⟨k, hk⟩ := s.exists_traverse_eq (β := β)
  rw [hk] at h
  cases hl : s.slotted.mapM fun p => f p.1 p.2 with
  | error x => rw [hl] at h; cases h
  | ok bs => exact exists_of_mapM_eq_ok hl

end Shape

end SqlTree
