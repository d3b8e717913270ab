import SqlTree.Proofs.Tree.Equality
import SqlTree.Tree.Names

/-!
# Rebuilding trees

A node is given by its kind and its fields (`Shape.eq_of_fields_eq`).  A transformation that keeps
kinds puts the transformed children in the place of the children, leaves what is no child as it was,
and does nothing but replace the node so made (`Node.transform_rebuilds`); that a node is handed on
as it was when nothing below it was replaced cannot be told from rebuilding it
(`Node.run_transformSharing`).
-/

namespace SqlTree

namespace Field

variable {α : Type}

@[simp] theorem word_inj {e : Type} [Named e] [Distinct e] {x y : e} :
    (word x : Field α) = word y ↔ x = y := by
  simp only [word, plain.injEq, Json.string.injEq]
  exact ⟨Distinct.inj x y, congrArg _⟩

@[simp] theorem optionalWord_inj {e : Type} [Named e] [Distinct e] {x y : Option e} :
    (optionalWord x : Field α) = optionalWord y ↔ x = y := by
  cases x <;> cases y <;> simp [optionalWord] <;> simp [word]

@[simp] theorem flag_inj {b c : Bool} : (flag b : Field α) = flag c ↔ b = c := by simp [flag]

@[simp] theorem optionalFlag_inj {b c : Option Bool} :
    (optionalFlag b : Field α) = optionalFlag c ↔ b = c := by
  cases b <;> cases c <;> simp [optionalFlag] <;> simp [flag]

@[simp] theorem text_inj {s t : String} : (text s : Field α) = text t ↔ s = t := by simp [text]

@[simp] theorem optionalText_inj {s t : Option String} :
    (optionalText s : Field α) = optionalText t ↔ s = t := by
  cases s <;> cases t <;> simp [optionalText] <;> simp [text]

@[simp] theorem texts_inj {ss ts : List String} : (texts ss : Field α) = texts ts ↔ ss = ts := by
  have hinj : Function.Injective Json.string := fun _ _ h => by injection h
  simp [texts, List.map_inj_right, hinj.eq_iff]

end Field

namespace Shape

variable {α β : Type}

/-- The kind and the fields of a node leave nothing open. -/
theorem eq_of_fields_eq {s t : Shape α} (hk : s.kind = t.kind) (h : s.fields = t.fields) :
    s = t := by
  have hi := ctorIdx_eq hk
  clear hk
  cases s
  all_goals
    refine Shape.ctorElim (motive := fun t => _ = t.fields → _ = t) _ t hi ?_ h
    refine ⟨?_⟩
    clear h hi t
  -- A record has as many fields as its kind says, so both records are taken apart.
  case selectAll | defaultInsertValue => exact fun _ => rfl
  case aggregateFunction p | onConflict p | selectQuery p | insertQuery p | updateQuery p |
      deleteQuery p | mergeQuery p | createTable p | columnDefinition p | generated p |
      references p | createIndex p | createView p | alterTable p | alterColumn p =>
    intro q h
    cases p
    cases q
    simp_all [fields, Aggregate.fields, OnConflict.fields, Select.fields, Insert.fields,
      Update.fields, Delete.fields, Merge.fields, CreateTable.fields, ColumnDefinition.fields,
      Generated.fields, References.fields, CreateIndex.fields, CreateView.fields,
      AlterTable.fields, AlterColumn.fields]
  all_goals
    intros
    rename_i h
    simp_all [fields]

/-- A shape with `g c` in the place of each child `c`, and with all else as it was. -/
structure Replaced (g : α → β) (s : Shape α) (t : Shape β) : Prop where
  kind : t.kind = s.kind
  fields : t.fields = s.fields.map fun x => (x.1, x.2.map g)

theorem replaced_iff {g : α → β} {s : Shape α} {t : Shape β} : s.Replaced g t ↔ t = s.map g := by
  constructor
  · intro h
    apply eq_of_fields_eq
    · rw [h.kind, kind_map]
    · rw [h.fields, fields_map]
  · rintro rfl
    exact ⟨kind_map g s, fields_map g s⟩

end Shape

namespace Node

/-! ## Nodes that are handed on as they were -/

/-- A transformation that hands on a node as it was, unless something below it was replaced.  The
state tells whether anything was replaced so far; `same` tells a node from one that replaces it. -/
def transformSharing {m : Type → Type} [Monad m] (same : Node → Node → Bool)
    (f : Node → List Node → Node) (root : Node) :
    List Node → StateT Bool (ExceptT Error m) Node :=
  para (fun n s ancestors => do
    let before : Bool ← get
    set false
    let t ← s.traverse fun slot c => do StateT.lift (fit slot (← c.2 (ancestors ++ [n])))
    let below : Bool ← get
    let r := f (if below then ⟨t⟩ else n) ancestors
    set (before || !same r n)
    return r) root

theorem transformSharing_mk {m : Type → Type} [Monad m] [LawfulMonad m]
    (same : Node → Node → Bool) (f : Node → List Node → Node) (s : Shape Node)
    (ancestors : List Node) :
    transformSharing (m := m) same f ⟨s⟩ ancestors = (do
      let before : Bool ← get
      set false
      let t ← s.traverse fun slot c => do
        StateT.lift (fit slot (← c.transformSharing same f (ancestors ++ [⟨s⟩])))
      let below : Bool ← get
      let r := f (if below then ⟨t⟩ else ⟨s⟩) ancestors
      set (before || !same r ⟨s⟩)
      return r) := by
  rw [transformSharing, para_mk]
  simp only [Shape.traverse_map]
  rfl

/-- A position hands on the node it was given. -/
theorem map_fit_congr {α : Type} {g g' : Node → α} (slot : Slot) {n : Node} (h : g n = g' n) :
    g <$> fit (m := Id) slot n = g' <$> fit (m := Id) slot n := by
  by_cases hn : slot.admits n.kind = true
  · rw [fit_of_admits hn, map_pure, map_pure, h]
  · cases slot with
    | any => exact absurd rfl hn
    | only k =>
      have hk : n.kind ≠ k := fun hk => hn (beq_iff_eq.mpr hk.symm)
      rw [fit, if_neg hk]
      rfl

/-- The state after a list of nodes tells whether they all are what they were. -/
theorem run_mapM_sharing (same : Node → Node → Bool)
    {F : Slot × Node → StateT Bool (ExceptT Error Id) Node}
    {G : Slot × Node → ExceptT Error Id Node} {l : List (Slot × Node)}
    (h : ∀ p ∈ l, ∀ d, (F p).run d = (fun m => (m, d || !same m p.2)) <$> G p) (d : Bool) :
    (l.mapM F).run d = (fun ms => (ms, d || !ms.isEqv (l.map Prod.snd) same)) <$> l.mapM G := by
  induction l generalizing d with
  | nil => simp [List.isEqv]
  | cons p l ih =>
    obtain ⟨hp, hl⟩ := List.forall_mem_cons.mp h
    simp only [List.mapM_cons, StateT.run_bind, hp, bind_map_left, ih hl, map_bind, StateT.run_pure,
      map_pure, List.map_cons, List.isEqv, Bool.not_and, Bool.or_assoc]

theorem eq_of_isEqv {same : Node → Node → Bool} (hsame : ∀ a b, same a b = true → a = b)
    {as bs : List Node} (h : as.isEqv bs same = true) : as = bs := by
  induction as generalizing bs with
  | nil =>
    cases bs with
    | nil => rfl
    | cons b bs => cases h
  | cons a as ih =>
    cases bs with
    | nil => cases h
    | cons b bs =>
      obtain ⟨ha, has⟩ := Bool.and_eq_true_iff.mp h
      rw [hsame a b ha, ih has]

/-- If all that replaces a node is told from it, handing on what was not replaced makes no
difference. -/
theorem run_transformSharing {same : Node → Node → Bool}
    (hsame : ∀ a b, same a b = true → a = b) (f : Node → List Node → Node) (n : Node)
    (ancestors : List Node) (d : Bool) :
    (n.transformSharing (m := Id) same f ancestors).run d =
      (fun m => (m, d || !same m n)) <$> transformBelow (m := Id) f n ancestors := by
  induction n using childrenInduction generalizing ancestors d with
  | h s ih =>
    obtain ⟨k, hk⟩ := s.exists_traverse_eq (β := Node)
    have hself : k (s.slotted.map Prod.snd) = s := by
      have hid := hk Id fun _ c => pure c
      rw [List.mapM_pure] at hid
      exact hid.symm.trans s.map_id
    have hchildren := run_mapM_sharing same (l := s.slotted)
      (F := fun p => do StateT.lift (fit p.1 (← p.2.transformSharing same f (ancestors ++ [⟨s⟩]))))
      (G := fun p => do fit p.1 (← p.2.transformBelow (m := Id) f (ancestors ++ [⟨s⟩])))
      fun p hp d => by
        simp only [StateT.run_bind, ih p.2 (Shape.mem_children_of_mem_slotted hp), bind_map_left,
          StateT.run_lift, bind_pure_comp, map_bind]
        exact bind_congr fun m => map_fit_congr p.1 rfl
    rw [transformSharing_mk, transformBelow_mk, hk, hk]
    simp only [StateT.run_bind, StateT.run_get, StateT.run_set, pure_bind, hchildren,
      bind_map_left, Bool.false_or, map_bind, StateT.run_pure]
    refine bind_congr fun ms => ?_
    -- Only where all children are what they were is the node handed on, and then it is the same.
    have hshape :
        (if (!ms.isEqv (s.slotted.map Prod.snd) same) = true then k ms else s) = k ms := by
      by_cases hms : ms.isEqv (s.slotted.map Prod.snd) same = true
      · rw [eq_of_isEqv hsame hms, hself, ite_self]
      · simp [hms]
    rw [← apply_ite Node.mk, hshape]
    rfl

theorem run'_transformSharing {same : Node → Node → Bool}
    (hsame : ∀ a b, same a b = true → a = b) (f : Node → List Node → Node) (n : Node) :
    (n.transformSharing (m := Id) same f []).run' false = n.transform f := by
  rw [StateT.run'_eq, run_transformSharing hsame, Functor.map_map]
  exact id_map (transformBelow (m := Id) f n [])

/-! ## Renaming twice -/

/-- A change of identifiers into identifiers, and of nothing else. -/
structure OnlyRenames (f : Node → Node) : Prop where
  identifier : ∀ s, ∃ t, f ⟨.identifier s⟩ = ⟨.identifier t⟩
  other : ∀ n, n.kind ≠ .identifier → f n = n

theorem exists_of_kind_eq_identifier {n : Node} (h : n.kind = .identifier) :
    ∃ s, n = ⟨.identifier s⟩ := by
  obtain ⟨s⟩ := n
  cases s with
  | identifier s => exact ⟨s, rfl⟩
  | _ => cases h

namespace OnlyRenames

variable {f g : Node → Node}

theorem kind (hf : OnlyRenames f) (n : Node) : (f n).kind = n.kind := by
  by_cases hn : n.kind = .identifier
  · obtain ⟨s, rfl⟩ := exists_of_kind_eq_identifier hn
    obtain ⟨t, ht⟩ := hf.identifier s
    rw [ht]
    rfl
  · rw [hf.other n hn]

theorem wellFormed (hf : OnlyRenames f) {n : Node} (h : n.wellFormed = true) :
    (f n).wellFormed = true := by
  by_cases hn : n.kind = .identifier
  · obtain ⟨s, rfl⟩ := exists_of_kind_eq_identifier hn
    obtain ⟨t, ht⟩ := hf.identifier s
    rw [ht]
    rfl
  · rwa [hf.other n hn]

/-- What is done after renaming can be done together with it. -/
theorem rewrite_rewrite (hf : OnlyRenames f) (g : Node → Node) (n : Node) :
    (n.rewrite f).rewrite g = n.rewrite fun m => g (f m) := by
  induction n using childrenInduction with
  | h s ih =>
    by_cases hs : Node.kind ⟨s⟩ = .identifier
    · obtain ⟨s, hs⟩ := exists_of_kind_eq_identifier hs
      obtain ⟨t, ht⟩ := hf.identifier s
      rw [hs, rewrite_of_no_children f rfl, rewrite_of_no_children _ rfl, ht,
        rewrite_of_no_children g rfl]
    · have hother : ∀ g : Node → Node, f ⟨s.map g⟩ = ⟨s.map g⟩ :=
        fun g => hf.other _ (by rwa [Node.kind, shape, Shape.kind_map])
      have hmap : s.map (rewrite g ∘ rewrite f) = s.map (rewrite fun m => g (f m)) :=
        s.map_congr ih
      rw [rewrite_mk f, hother, rewrite_mk, Shape.map_map, hmap, rewrite_mk, hother]

theorem transform_transform (hf : OnlyRenames f) (hg : OnlyRenames g) {n : Node}
    (hn : n.wellFormed = true) :
    ((n.transform fun m _ => f m) >>= fun m => m.transform fun m _ => g m) =
      n.transform fun m _ => g (f m) := by
  have hkind : ∀ m, (g (f m)).kind = m.kind := fun m => (hg.kind _).trans (hf.kind m)
  have hw : (n.rewrite f).wellFormed = true :=
    wellFormed_rewrite hf.kind (fun _ => hf.wellFormed) hn
  rw [transform_eq_rewrite hf.kind hn, transform_eq_rewrite hkind hn, ← hf.rewrite_rewrite g n]
  exact transform_eq_rewrite hg.kind hw

end OnlyRenames

/-! ## Trees rebuilt from the leaves up -/

/-- `T` gives for each node, below given ancestors, what `f` makes of the node with its children
replaced by what `T` gives for them, and of no other node. -/
def BottomUp (f T : Node → List Node → Node) : Prop :=
  ∀ s ancestors, ∃ t : Shape Node,
    (∀ u, s.Replaced (fun c => T c (ancestors ++ [⟨s⟩])) u ↔ u = t) ∧
      T ⟨s⟩ ancestors = f ⟨t⟩ ancestors

theorem bottomUp_rewritten (f : Node → List Node → Node) : BottomUp f (rewritten f) :=
  fun s ancestors => ⟨_, fun _ => Shape.replaced_iff, rewritten_mk f s ancestors⟩

/-- A transformation that keeps kinds is a rewriting from the leaves up, whether or not nodes are
handed on that were not replaced.  So nothing is changed if no node is, and two renamings are
one. -/
theorem transform_rebuilds {n : Node} (hn : n.wellFormed = true) :
    (∀ f : Node → List Node → Node, (∀ m as, (f m as).kind = m.kind) →
      ∃ T, BottomUp f T ∧ n.transform f = .ok (T n []) ∧
        ∀ same : Node → Node → Bool, (∀ a b, same a b = true → a = b) →
          (n.transformSharing (m := Id) same f []).run' false = .ok (T n [])) ∧
      (n.transform fun m _ => m) = .ok n ∧
      ∀ f g : Node → Node, OnlyRenames f → OnlyRenames g →
        ((n.transform fun m _ => f m) >>= fun m => m.transform fun m _ => g m) =
          n.transform fun m _ => g (f m) := by
  refine ⟨fun f hf => ?_, ?_, fun f g hf hg => hf.transform_transform hg hn⟩
  · have htransform := transform_eq_ok hf hn
    refine ⟨rewritten f, bottomUp_rewritten f, htransform, fun same hsame => ?_⟩
    rw [run'_transformSharing hsame, htransform]
  · have hid := transform_eq_rewrite (f := id) (fun _ => rfl) hn
    rwa [rewrite_id] at hid

/-- A new name for the one column of a select, whose flag and table stay. -/
theorem transform_rebuilds_select :
    let n : Node := ⟨.selectQuery {
      fromClause := some ⟨.fromClause [⟨.value (.int 1) true⟩]⟩
      selections := [⟨.selection (column "old")⟩] }⟩
    let f : Node → List Node → Node := fun m _ => match m with
      | ⟨.identifier _⟩ => identifier "new"
      | m => m
    n.wellFormed = true ∧ (∀ m as, (f m as).kind = m.kind) ∧
      (∃ T, BottomUp f T ∧ n.transform f = .ok (T n []) ∧
        T n [] = ⟨.selectQuery {
          fromClause := some ⟨.fromClause [⟨.value (.int 1) true⟩]⟩
          selections := [⟨.selection (column "new")⟩] }⟩) ∧
      (n.transform fun m _ => m) = .ok n := by
  intro n f
  have hn : n.wellFormed = true := by decide
  have hf : ∀ m as, (f m as).kind = m.kind := by
    intro m as
    show (match m with | ⟨.identifier _⟩ => identifier "new" | m => m : Node).kind = m.kind
    split <;> rfl
  obtain ⟨hrebuilds, hid, -⟩ := transform_rebuilds hn
  obtain ⟨T, hT, htransform, -⟩ := hrebuilds f hf
  exact ⟨hn, hf, ⟨T, hT, htransform, Except.ok.inj (htransform.symm.trans rfl)⟩, hid⟩

end Node

end SqlTree
