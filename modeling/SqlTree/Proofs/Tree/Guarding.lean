import SqlTree.Proofs.Tree.Rewriting

/-!
# Guarded positions

A transformation replaces nodes one after another, those below a node before the node and siblings
in the order in which they are written (`Node.replacements`).  It stops at the first node whose
position requires another kind than the one it was replaced by, with that position's requirement in
the error; if there is none, all nodes are replaced (`Node.transform_guarded`).
-/

namespace SqlTree

/-- A node that was replaced: what its position requires, how the node looked when its turn came,
its ancestors, and what it was replaced by. -/
structure Replacement where
  slot : Slot
  node : Node
  ancestors : List Node
  result : Node

namespace Replacement

def subject (r : Replacement) : Node × List Node := (r.node, r.ancestors)

/-- The position requires another kind. -/
def Misfit (r : Replacement) : Prop := ∃ k, r.slot = .only k ∧ r.result.kind ≠ k

def fault? (r : Replacement) : Option Error :=
  match r.slot with
  | .any => none
  | .only k => if r.result.kind = k then none else some (.pluginContract k r.result.kind)

theorem fault?_eq_some_iff {r : Replacement} {e : Error} : r.fault? = some e ↔
    ∃ k, r.slot = .only k ∧ r.result.kind ≠ k ∧ e = .pluginContract k r.result.kind := by
  unfold fault?
  cases r.slot with
  | any => simp
  | only k =>
    by_cases hk : r.result.kind = k
    · simp [hk]
    · simp only [if_neg hk]
      constructor
      · rintro ⟨⟩
        exact ⟨k, rfl, hk, rfl⟩
      · rintro ⟨-, ⟨⟩, -, rfl⟩
        rfl

theorem fault?_eq_none_iff {r : Replacement} : r.fault? = none ↔ ¬ r.Misfit := by
  unfold fault? Misfit
  cases r.slot with
  | any => simp
  | only k => simp

/-- All replacements fit, or one is the first that does not. -/
theorem fit_or_exists_first (rs : List Replacement) : (∀ r ∈ rs, r.fault? = none) ∨
    ∃ before r after e, rs = before ++ r :: after ∧ (∀ b ∈ before, b.fault? = none) ∧
      r.fault? = some e := by
  cases hfirst : rs.findSome? fault? with
  | none => exact .inl (List.findSome?_eq_none_iff.mp hfirst)
  | some e =>
    obtain ⟨before, r, after, hrs, hr, h⟩ := List.findSome?_eq_some_iff.mp hfirst
    exact .inr ⟨before, r, after, e, hrs, h, hr⟩

section Perform

variable {m : Type → Type} [Monad m] {α β : Type} (act : Node → List Node → m Unit)

/-- Does something for one replacement after another, until one does not fit. -/
def perform : List Replacement → α → m (Except Error α)
  | [], a => pure (.ok a)
  | r :: rs, a => do
    act r.node r.ancestors
    match r.fault? with
    | some e => pure (.error e)
    | none => perform rs a

variable {act} [LawfulMonad m]

/-- Replacements that all fit are followed by the next ones. -/
theorem perform_bind {rs rs' : List Replacement} {a : α} {b : β}
    {k : Except Error α → m (Except Error β)} (hok : k (.ok a) = perform act rs' b)
    (herror : ∀ e, k (.error e) = pure (.error e)) :
    perform act rs a >>= k = perform act (rs ++ rs') b := by
  induction rs with
  | nil => rw [perform, pure_bind, hok, List.nil_append]
  | cons r rs ih =>
    rw [List.cons_append, perform, perform, bind_assoc]
    refine bind_congr fun _ => ?_
    split
    · rw [pure_bind, herror]
    · exact ih

theorem run_bind_perform {x : ExceptT Error m α} {k : α → ExceptT Error m β}
    {rs rs' : List Replacement} {a : α} {b : β} (hx : x.run = perform act rs a)
    (hk : (k a).run = perform act rs' b) : (x >>= k).run = perform act (rs ++ rs') b := by
  rw [ExceptT.run_bind, hx]
  exact perform_bind hk fun _ => rfl

variable (act) in
theorem run_mapM_perform {γ : Type} {l : List γ} {x : γ → ExceptT Error m β}
    {rs : γ → List Replacement} {b : γ → β}
    (h : ∀ c ∈ l, (x c).run = perform act (rs c) (b c)) :
    (l.mapM x).run = perform act (l.flatMap rs) (l.map b) := by
  induction l with
  | nil => rfl
  | cons c l ih =>
    obtain ⟨hc, hl⟩ := List.forall_mem_cons.mp h
    rw [List.mapM_cons, List.flatMap_cons, List.map_cons]
    refine run_bind_perform hc ?_
    rw [← List.append_nil (l.flatMap rs)]
    exact run_bind_perform (ih hl) rfl

theorem perform_of_fits {rs : List Replacement} (h : ∀ r ∈ rs, r.fault? = none) (a : α) :
    perform act rs a = do
      rs.forM fun r => act r.node r.ancestors
      return .ok a := by
  induction rs with
  | nil => simp [perform]
  | cons r rs ih =>
    obtain ⟨hr, hrs⟩ := List.forall_mem_cons.mp h
    simp [perform, hr, ih hrs]

theorem perform_of_fault {before after : List Replacement} {r : Replacement} {e : Error}
    (h : ∀ r ∈ before, r.fault? = none) (hr : r.fault? = some e) (a : α) :
    perform act (before ++ r :: after) a = do
      (before ++ [r]).forM fun r => act r.node r.ancestors
      return .error e := by
  induction before with
  | nil => simp [perform, hr]
  | cons b before ih =>
    obtain ⟨hb, hbefore⟩ := List.forall_mem_cons.mp h
    simp [perform, hb, ih hbefore]

end Perform

end Replacement

namespace Node

variable (f : Node → List Node → Node)

/-- All replacements below and at a node, in the order in which they are made. -/
def replacements (root : Node) : Slot → List Node → List Replacement :=
  para (fun n s slot ancestors =>
    let m : Node := ⟨s.map fun c => c.1.rewritten f (ancestors ++ [n])⟩
    s.slotted.flatMap (fun p => p.2.2 p.1 (ancestors ++ [n])) ++
      [⟨slot, m, ancestors, f m ancestors⟩]) root

theorem replacements_mk (s : Shape Node) (slot : Slot) (ancestors : List Node) :
    replacements f ⟨s⟩ slot ancestors =
      let m : Node := ⟨s.map fun c => c.rewritten f (ancestors ++ [⟨s⟩])⟩
      s.slotted.flatMap (fun p => p.2.replacements f p.1 (ancestors ++ [⟨s⟩])) ++
        [⟨slot, m, ancestors, f m ancestors⟩] := by
  rw [replacements, para_mk, Shape.slotted_map, List.flatMap_map, Shape.map_map]
  rfl

section Transform

variable {m : Type → Type} [Monad m] [LawfulMonad m] (act : Node → List Node → m Unit)

open Replacement

omit [LawfulMonad m] in
theorem run_fit (slot : Slot) (n m' : Node) (ancestors : List Node) :
    (fit (m := m) slot m').run =
      match fault? ⟨slot, n, ancestors, m'⟩ with
      | some e => pure (.error e)
      | none => pure (.ok m') := by
  cases slot with
  | any => rfl
  | only k =>
    by_cases hk : m'.kind = k
    · simp [fault?, fit, hk]
    · simp [fault?, fit, hk]

/-- Replacing one node is one step, and the guard of its position looks at the result. -/
theorem run_replace_fit (slot : Slot) (n : Node) (ancestors : List Node) :
    (ExceptT.lift (do act n ancestors; return f n ancestors) >>= fit slot).run =
      perform act [⟨slot, n, ancestors, f n ancestors⟩] (f n ancestors) := by
  rw [ExceptT.run_bind_lift, bind_assoc]
  simp only [pure_bind, run_fit slot n _ ancestors]
  rfl

/-- A transformation performs the replacements of its tree. -/
theorem run_transformBelow (n : Node) (slot : Slot) (ancestors : List Node) :
    (do fit slot (← n.transformBelow (fun n as => do act n as; return f n as) ancestors)).run =
      perform act (n.replacements f slot ancestors) (n.rewritten f ancestors) := by
  induction n using childrenInduction generalizing slot ancestors with
  | h s ih =>
    -- Whatever the kind, the children are taken one after another as a list.
    obtain ⟨k, hk⟩ := s.exists_traverse_eq (β := Node)
    have hmap : s.map (fun c => c.rewritten f (ancestors ++ [⟨s⟩])) =
        k (s.slotted.map fun p => p.2.rewritten f (ancestors ++ [⟨s⟩])) := by
      have hid := hk Id fun _ c => pure (c.rewritten f (ancestors ++ [⟨s⟩]))
      rwa [List.mapM_pure] at hid
    have hchildren := run_mapM_perform act fun p hp =>
      ih p.2 (Shape.mem_children_of_mem_slotted hp) p.1 (ancestors ++ [⟨s⟩])
    rw [transformBelow_mk, replacements_mk, rewritten_mk, bind_assoc, hk, bind_map_left, hmap]
    exact run_bind_perform hchildren (run_replace_fit f act slot _ ancestors)

theorem run_transformM (n : Node) :
    (n.transformM fun n as => do act n as; return f n as).run =
      perform act (n.replacements f .any []) (n.rewritten f []) := by
  rw [← run_transformBelow f act n .any []]
  exact congrArg ExceptT.run (bind_pure _).symm

end Transform

/-- Puts a node and its ancestors on record. -/
def recordCall (n : Node) (ancestors : List Node) : StateM (List (Node × List Node)) Unit :=
  modify (· ++ [(n, ancestors)])

/-- A transformation, with the nodes it looked at and their ancestors. -/
def transformRecorded (n : Node) : Except Error Node × List (Node × List Node) :=
  let recorded := n.transformM fun n ancestors => do recordCall n ancestors; return f n ancestors
  Id.run (recorded.run.run [])

theorem run_forM_recordCall (rs : List Replacement) (calls : List (Node × List Node)) :
    (rs.forM fun r => recordCall r.node r.ancestors).run calls =
      pure ((), calls ++ rs.map Replacement.subject) := by
  induction rs generalizing calls with
  | nil => simp
  | cons r rs ih =>
    have hnext := ih (calls ++ [r.subject])
    rw [List.append_assoc] at hnext
    exact hnext

variable {f} {n : Node}

open Replacement

theorem transform_eq_perform : n.transform f =
    perform (m := Id) (fun _ _ => pure ()) (n.replacements f .any []) (n.rewritten f []) :=
  run_transformM (m := Id) f (fun _ _ => pure ()) n

theorem transformRecorded_eq_perform : n.transformRecorded f =
    (perform recordCall (n.replacements f .any []) (n.rewritten f [])).run [] :=
  congrArg (fun x => StateT.run x []) (run_transformM f recordCall n)

/-- Where every replacement fits, every node is replaced. -/
theorem transformRecorded_of_fits (h : ∀ r ∈ n.replacements f .any [], r.fault? = none) :
    n.transformRecorded f = (.ok (n.rewritten f []), (n.replacements f .any []).map subject) ∧
      n.transform f = .ok (n.rewritten f []) := by
  constructor
  · rw [transformRecorded_eq_perform, perform_of_fits h, StateT.run_bind, run_forM_recordCall]
    rfl
  · rw [transform_eq_perform, perform_of_fits h]
    rfl

/-- The first replacement that does not fit is the last one that is made. -/
theorem transformRecorded_of_fault {before after : List Replacement} {r : Replacement} {e : Error}
    (hrs : n.replacements f .any [] = before ++ r :: after)
    (h : ∀ b ∈ before, b.fault? = none) (hr : r.fault? = some e) :
    n.transformRecorded f = (.error e, (before ++ [r]).map subject) ∧ n.transform f = .error e := by
  constructor
  · rw [transformRecorded_eq_perform, hrs, perform_of_fault h hr, StateT.run_bind,
      run_forM_recordCall]
    rfl
  · rw [transform_eq_perform, hrs, perform_of_fault h hr]
    rfl

theorem fst_transformRecorded (f : Node → List Node → Node) (n : Node) :
    (n.transformRecorded f).1 = n.transform f := by
  obtain h | ⟨before, r, after, e, hrs, h, hr⟩ := fit_or_exists_first (n.replacements f .any [])
  · obtain ⟨hrecorded, htransform⟩ := transformRecorded_of_fits h
    rw [hrecorded, htransform]
  · obtain ⟨hrecorded, htransform⟩ := transformRecorded_of_fault hrs h hr
    rw [hrecorded, htransform]

theorem exists_transform_eq_error_iff (f : Node → List Node → Node) (n : Node) :
    (∃ e, n.transform f = .error e) ↔ ∃ r ∈ n.replacements f .any [], r.Misfit := by
  obtain h | ⟨before, r, after, e, hrs, h, hr⟩ := fit_or_exists_first (n.replacements f .any [])
  · rw [(transformRecorded_of_fits h).2]
    refine iff_of_false nofun ?_
    rintro ⟨r, hr, hm⟩
    exact fault?_eq_none_iff.mp (h r hr) hm
  · refine iff_of_true ⟨e, (transformRecorded_of_fault hrs h hr).2⟩ ⟨r, ?_, ?_⟩
    · simp [hrs]
    · obtain ⟨k, hk, hne, -⟩ := fault?_eq_some_iff.mp hr
      exact ⟨k, hk, hne⟩

/-- A transformation fails if and only if some node is replaced by one of another kind than its
position requires.  The first such node is named by the error and is the last that is looked at;
without one all nodes are replaced, the root and those in the other positions by whatever comes. -/
theorem transform_guarded (f : Node → List Node → Node) (n : Node) :
    (n.transformRecorded f).1 = n.transform f ∧
      ((∃ e, n.transform f = .error e) ↔ ∃ r ∈ n.replacements f .any [], r.Misfit) ∧
      ((∀ r ∈ n.replacements f .any [], ¬ r.Misfit) →
        n.transformRecorded f =
          (.ok (n.rewritten f []), (n.replacements f .any []).map subject)) ∧
      ∀ before r after k, n.replacements f .any [] = before ++ r :: after →
        (∀ b ∈ before, ¬ b.Misfit) → r.slot = .only k → r.result.kind ≠ k →
          n.transformRecorded f =
            (.error (.pluginContract k r.result.kind), (before ++ [r]).map subject) := by
  refine ⟨fst_transformRecorded f n, exists_transform_eq_error_iff f n, fun h => ?_,
    fun before r after k hrs h hk hne => ?_⟩
  · exact (transformRecorded_of_fits fun r hr => fault?_eq_none_iff.mpr (h r hr)).1
  · have hr : r.fault? = some (.pluginContract k r.result.kind) :=
      fault?_eq_some_iff.mpr ⟨k, hk, hne, rfl⟩
    exact (transformRecorded_of_fault hrs (fun b hb => fault?_eq_none_iff.mpr (h b hb)) hr).1

/-- A condition that becomes a column is refused; what is written in it was replaced before. -/
example :
    let n : Node := ⟨.selectQuery { whereClause := some ⟨.whereClause ⟨.selectAll⟩⟩ }⟩
    let oops : Node := ⟨.column ⟨.identifier "oops"⟩⟩
    let f : Node → List Node → Node := fun m _ => if m.kind = .whereClause then oops else m
    ((n.transformRecorded f).1 = .error (.pluginContract .whereClause .column)) ∧
      (n.transformRecorded f).2.map (fun call => call.1.kind) = [.selectAll, .whereClause] :=
  ⟨rfl, rfl⟩

end Node

end SqlTree
