import SqlTree.Proofs.Database.HandlePaths
import Mathlib.Data.List.Infix
import Mathlib.Logic.Function.Basic
import Mathlib.Logic.Relation

/-!
# Drivers are initialized once

Any number of tasks that initialize a driver, get connections of it and destroy it.  Each works as
it would alone, but calls of others come between its own (`Gate.Step`); only of the initializations
there is one at a time, a success is kept and a failure forgotten.  In whatever order the calls come,
one success comes before all connections and behind all other initializations
(`Gate.opens_once`).
-/

namespace SqlTree

open Action (does_bind does_bind_ok silent_get)

/-- What a task may want of a driver, and what the driver is asked for. -/
inductive Want where
  | init
  | acquire
  | destroy
  deriving DecidableEq

/-- What a task does for what it wants. -/
def Want.perform (u : Party) : Want → Action Paths (Option Connection)
  | .init => do
    Database.prepare u.driver
    return none
  | .acquire => do
    return some (← Database.acquire u.driver)
  | .destroy => do
    (u.handle .pool).destroy
    return none

/-- What happens to a task. -/
inductive Moment where
  | called (k : Want)
  /-- The driver is asked. -/
  | sent (k : Want)
  | answered (x : Call)
  | returned (r : Except Error (Option Connection))

/-- How far a task has come. -/
inductive Gate.Stage where
  | idle
  | preparing (k : Want)
  /-- Its initialization is the one that is under way. -/
  | inside (k : Want)
  | prepared
  | asked (k : Want)
  | done

/-- A driver and the tasks that use it, each for one thing.  What was seen last comes first. -/
structure Gate (ι : Type) where
  shared : Shared := {}
  visitor : Option ι := none
  stage : ι → Gate.Stage := fun _ => .idle
  seen : List (ι × Moment) := []

namespace Gate

variable {ι : Type} [DecidableEq ι]

def go (g : Gate ι) (i : ι) (s : Stage) (ms : List Moment) : Gate ι :=
  { g with stage := Function.update g.stage i s, seen := ms.map (Prod.mk i) ++ g.seen }

/-- What comes of a preparation: with a driver that is ready, `acquire` goes on. -/
def goOn (g : Gate ι) (i : ι) (ms : List Moment) : Want → Except Error Unit → Gate ι
  | .acquire, .ok _ => g.go i .prepared ms
  | _, r => g.go i .done (.returned (r.map fun _ => none) :: ms)

variable (u : Party)

inductive Step : Gate ι → Gate ι → Prop
  | call {g : Gate ι} {i : ι} {k : Want} (hi : g.stage i = .idle) (hk : k ≠ .destroy) :
    Step g (g.go i (.preparing k) [.called k])
  /-- The driver turns out to be initialized. -/
  | pass {g : Gate ι} {i : ι} {k : Want} {r : Except Error Unit} {t : Shared}
    (hi : g.stage i = .preparing k) (hdoes : (Database.prepare u.driver).Does g.shared [] r t) :
    Step g ({ g with shared := t }.goOn i [] k r)
  | enter {g : Gate ι} {i : ι} {k : Want} {a r : Except Error Unit} {t : Shared}
    (hi : g.stage i = .preparing k) (hfree : g.visitor = none)
    (hdoes : (Database.prepare u.driver).Does g.shared [.call (.init a)] r t) :
    Step g ({ g with visitor := some i }.go i (.inside k) [.sent .init])
  | leave {g : Gate ι} {i : ι} {k : Want} {a r : Except Error Unit} {t : Shared}
    (hi : g.stage i = .inside k) (hvisitor : g.visitor = some i)
    (hdoes : (Database.prepare u.driver).Does g.shared [.call (.init a)] r t) :
    Step g ({ g with shared := t, visitor := none }.goOn i [.answered (.init a)] k r)
  | ask {g : Gate ι} {i : ι} (hi : g.stage i = .prepared) :
    Step g (g.go i (.asked .acquire) [.sent .acquire])
  | acquired {g : Gate ι} {i : ι} {a r : Except Error Connection} {t : Shared}
    (hi : g.stage i = .asked .acquire)
    (hdoes : (Action.call u.driver.acquire).Does g.shared [.call (.acquire a)] r t) :
    Step g ({ g with shared := t }.go i .done [.returned (r.map some), .answered (.acquire a)])
  /-- Destroying looks at once whether there is anything to destroy. -/
  | skip {g : Gate ι} {i : ι} {r : Except Error Unit} {t : Shared} (hi : g.stage i = .idle)
    (hdoes : (u.handle .pool).destroy.Does g.shared [] r t) :
    Step g ({ g with shared := t }.go i .done
      [.returned (r.map fun _ => none), .called .destroy])
  | destroy {g : Gate ι} {i : ι} {a r : Except Error Unit} {t : Shared} (hi : g.stage i = .idle)
    (hdoes : (u.handle .pool).destroy.Does g.shared [.call (.destroy a)] r t) :
    Step g (g.go i (.asked .destroy) [.sent .destroy, .called .destroy])
  | destroyed {g : Gate ι} {i : ι} {a r : Except Error Unit} {t : Shared}
    (hi : g.stage i = .asked .destroy)
    (hdoes : (u.handle .pool).destroy.Does g.shared [.call (.destroy a)] r t) :
    Step g ({ g with shared := t }.go i .done
      [.returned (r.map fun _ => none), .answered (.destroy a)])

abbrev Steps : Gate ι → Gate ι → Prop := Relation.ReflTransGen (Step u)

section Seen

variable (ms : List (ι × Moment)) (i : ι)

/-- Whether an initialization has succeeded. -/
def Succeeded : Prop := ∃ i, (i, .answered (.init (.ok ()))) ∈ ms

/-- The tasks whose initialization is under way. -/
def running : List (ι × Moment) → List ι
  | [] => []
  | (i, .sent .init) :: ms => i :: running ms
  | (i, .answered (.init _)) :: ms => (running ms).erase i
  | _ :: ms => running ms

/-- What happened to one task. -/
def own : List Moment := ms.filterMap fun x => if x.1 = i then some x.2 else none

end Seen

section Seen

variable {ms : List (ι × Moment)} {i j : ι} {m : Moment}

omit [DecidableEq ι] in
theorem succeeded_cons :
    Succeeded ((i, m) :: ms) ↔ m = .answered (.init (.ok ())) ∨ Succeeded ms := by
  simp only [Succeeded, List.mem_cons, Prod.mk.injEq]
  constructor
  · rintro ⟨j, ⟨rfl, rfl⟩ | h⟩
    · exact .inl rfl
    · exact .inr ⟨j, h⟩
  · rintro (rfl | ⟨j, h⟩)
    · exact ⟨i, .inl ⟨rfl, rfl⟩⟩
    · exact ⟨j, .inr h⟩

@[simp] theorem mem_own : m ∈ own ms i ↔ (i, m) ∈ ms := by
  simp only [own, List.mem_filterMap, Option.ite_none_right_eq_some, Option.some.injEq]
  constructor
  · rintro ⟨⟨j, m'⟩, h, rfl, rfl⟩
    exact h
  · exact fun h => ⟨(i, m), h, rfl, rfl⟩

theorem own_go_self (ns : List Moment) : own (ns.map (Prod.mk i) ++ ms) i = ns ++ own ms i := by
  rw [own, List.filterMap_append, List.filterMap_map]
  simp [own]

theorem own_go_of_ne (h : j ≠ i) (ns : List Moment) :
    own (ns.map (Prod.mk i) ++ ms) j = own ms j := by
  rw [own, List.filterMap_append, List.filterMap_map]
  simp [own, h.symm]

/-- What holds of everything that was seen. -/
structure Lawful (ms : List (ι × Moment)) : Prop where
  acquire {i : ι} {before : List (ι × Moment)} :
    (i, .sent .acquire) :: before <:+ ms → Succeeded before
  init {i : ι} {before : List (ι × Moment)} :
    (i, .sent .init) :: before <:+ ms → ¬ Succeeded before ∧ running before = []
  destroy {i : ι} {before : List (ι × Moment)} :
    (i, .called .destroy) :: before <:+ ms → ((i, .sent .destroy) ∈ ms ↔ Succeeded before)

namespace Lawful

theorem nil : Lawful ([] : List (ι × Moment)) where
  acquire h := by cases List.suffix_nil.mp h
  init h := by cases List.suffix_nil.mp h
  destroy h := by cases List.suffix_nil.mp h

/-- Destroying apart, the next moment needs to be in order itself. -/
theorem cons (h : Lawful ms) (hacquire : m = .sent .acquire → Succeeded ms)
    (hinit : m = .sent .init → ¬ Succeeded ms ∧ running ms = [])
    (hdestroy : m ≠ .called .destroy ∧ m ≠ .sent .destroy) : Lawful ((i, m) :: ms) where
  acquire hb := by
    obtain heq | hb := List.suffix_cons_iff.mp hb
    · cases heq
      exact hacquire rfl
    · exact h.acquire hb
  init hb := by
    obtain heq | hb := List.suffix_cons_iff.mp hb
    · cases heq
      exact hinit rfl
    · exact h.init hb
  destroy {j before} hb := by
    obtain heq | hb := List.suffix_cons_iff.mp hb
    · cases heq
      exact absurd rfl hdestroy.1
    · rw [← h.destroy hb, List.mem_cons, or_iff_right]
      rintro heq
      cases heq
      exact hdestroy.2 rfl

/-- A task that is new asks the driver to destroy, or is done. -/
theorem destroying (h : Lawful ms) (hnew : own ms i = []) (hm : m = .sent .destroy ↔ Succeeded ms)
    (hother : m = .sent .destroy ∨ ∃ r, m = .returned r) :
    Lawful ((i, m) :: (i, .called .destroy) :: ms) where
  acquire hb := by
    obtain heq | hb := List.suffix_cons_iff.mp hb
    · obtain rfl | ⟨r, rfl⟩ := hother <;> cases heq
    · obtain heq | hb := List.suffix_cons_iff.mp hb
      · cases heq
      · exact h.acquire hb
  init hb := by
    obtain heq | hb := List.suffix_cons_iff.mp hb
    · obtain rfl | ⟨r, rfl⟩ := hother <;> cases heq
    · obtain heq | hb := List.suffix_cons_iff.mp hb
      · cases heq
      · exact h.init hb
  destroy {j before} hb := by
    have hnone : ∀ m', (i, m') ∉ ms := fun m' hmem => by
      rw [← mem_own, hnew] at hmem
      cases hmem
    obtain heq | hlast := List.suffix_cons_iff.mp hb
    · obtain rfl | ⟨r, rfl⟩ := hother <;> cases heq
    · obtain heq | hbefore := List.suffix_cons_iff.mp hlast
      · cases heq
        rw [← hm]
        simp [hnone, eq_comm]
      · have hne : j ≠ i := fun heq =>
          hnone _ (heq ▸ hbefore.subset (List.mem_cons_self ..))
        rw [← h.destroy hbefore]
        simp [hne]

end Lawful

end Seen

end Gate

/-- What happens to a task while it prepares the driver. -/
inductive Preparation : Except Error Unit → List Moment → Prop
  | ready : Preparation (.ok ()) []
  | tried (a : Except Error Unit) : Preparation a [.answered (.init a), .sent .init]

/-- What has happened to a task, by its stage. -/
inductive Course : Gate.Stage → List Moment → Prop
  | idle : Course .idle []
  | called {k : Want} (hk : k ≠ .destroy) : Course (.preparing k) [.called k]
  | inside {k : Want} (hk : k ≠ .destroy) : Course (.inside k) [.sent .init, .called k]
  | prepared {ms : List Moment} (h : Preparation (.ok ()) ms) :
    Course .prepared (ms ++ [.called .acquire])
  | asked {ms : List Moment} (h : Preparation (.ok ()) ms) :
    Course (.asked .acquire) (.sent .acquire :: ms ++ [.called .acquire])
  | acquired {ms : List Moment} (h : Preparation (.ok ()) ms) (a : Except Error Connection) :
    Course .done (.returned (a.map some) :: .answered (.acquire a) :: .sent .acquire :: ms ++
      [.called .acquire])
  | refused (e : Error) :
    Course .done [.returned (.error e), .answered (.init (.error e)), .sent .init, .called .acquire]
  | initialized {a : Except Error Unit} {ms : List Moment} (h : Preparation a ms) :
    Course .done (.returned (a.map fun _ => none) :: ms ++ [.called .init])
  | skipped : Course .done [.returned (.ok none), .called .destroy]
  | destroying : Course (.asked .destroy) [.sent .destroy, .called .destroy]
  | destroyed (a : Except Error Unit) :
    Course .done [.returned (a.map fun _ => none), .answered (.destroy a), .sent .destroy,
      .called .destroy]

namespace Course

variable {k : Want} {ms : List Moment}

theorem of_idle (h : Course .idle ms) : ms = [] := by
  cases h
  rfl

theorem of_preparing (h : Course (.preparing k) ms) : k ≠ .destroy ∧ ms = [.called k] := by
  cases h with
  | called hk => exact ⟨hk, rfl⟩

theorem of_inside (h : Course (.inside k) ms) :
    k ≠ .destroy ∧ ms = [.sent .init, .called k] := by
  cases h with
  | inside hk => exact ⟨hk, rfl⟩

theorem of_prepared (h : Course .prepared ms) :
    ∃ ns, Preparation (.ok ()) ns ∧ ms = ns ++ [.called .acquire] := by
  cases h with
  | prepared h => exact ⟨_, h, rfl⟩

theorem of_asked_acquire (h : Course (.asked .acquire) ms) :
    ∃ ns, Preparation (.ok ()) ns ∧ ms = .sent .acquire :: ns ++ [.called .acquire] := by
  cases h with
  | asked h => exact ⟨_, h, rfl⟩

theorem of_asked_destroy (h : Course (.asked .destroy) ms) :
    ms = [.sent .destroy, .called .destroy] := by
  cases h
  rfl

end Course

namespace Database

variable (u : Party) {s t : Shared}

theorem prepare_does_ready (h : s.initialized = true) :
    (prepare u.driver).Does s [] (.ok ()) s := by
  rw [prepare, does_bind_ok (silent_get s), h]
  exact (Action.does_pure ()).mpr ⟨rfl, rfl, rfl⟩

theorem prepare_does_init (h : s.initialized = false) (a : Except Error Unit) :
    (prepare u.driver).Does s [.call (.init a)] a { s with initialized := a.isOk } := by
  rw [prepare]
  simp only [does_bind_ok (silent_get s), h]
  cases a with
  | error e =>
    have hs : s = { s with initialized := false } := by rw [← h]
    exact does_bind.mpr (.inl ⟨e, rfl, (Action.does_call _).mpr ⟨rfl, hs.symm⟩⟩)
  | ok a =>
    exact does_bind.mpr (.inr ⟨(), s, _, [], rfl, (Action.does_call _).mpr ⟨rfl, rfl⟩,
      (Action.does_modify _).mpr ⟨rfl, rfl, rfl⟩⟩)

theorem does_destroy_iff {acts : List Act} {r : Except Error Unit} :
    (u.handle .pool).destroy.Does s acts r t ↔
      if s.initialized then acts = [.call (.destroy r)] ∧ t = s
      else acts = [] ∧ r = .ok () ∧ t = s := by
  show Action.Does (get >>= fun s : Shared => if s.initialized = true then
    Action.call u.driver.destroy else pure ()) s acts r t ↔ _
  rw [does_bind_ok (silent_get s)]
  split
  · exact Action.does_call _
  · exact Action.does_pure ()

theorem does_destroy {acts : List Act} {r : Except Error Unit}
    (h : (u.handle .pool).destroy.Does s acts r t) :
    s.initialized = false ∧ acts = [] ∧ r = .ok () ∧ t = s ∨
      s.initialized = true ∧ acts = [.call (.destroy r)] ∧ t = s := by
  rw [does_destroy_iff] at h
  split at h
  · exact .inr ⟨‹_›, h⟩
  · exact .inl ⟨Bool.eq_false_iff.mpr ‹_›, h⟩

end Database

/-- The calls of the driver that a task had answered. -/
def Moment.call? : Moment → Option Call
  | .answered x => some x
  | _ => none

def Moment.calls (ms : List Moment) : List Call := (ms.filterMap call?).reverse

@[simp] theorem Moment.calls_nil : calls [] = [] := rfl

@[simp] theorem Moment.calls_cons (m : Moment) (ms : List Moment) :
    calls (m :: ms) = calls ms ++ m.call?.toList := by
  cases h : m.call? <;> simp [calls, h]

@[simp] theorem Moment.calls_append (ms ns : List Moment) :
    calls (ms ++ ns) = calls ns ++ calls ms := by
  simp [calls]

namespace Preparation

variable {a : Except Error Unit} {ns : List Moment} (h : Preparation a ns)
include h

theorem called_notMem (k : Want) : .called k ∉ ns := by cases h <;> simp

theorem returned_notMem (r : Except Error (Option Connection)) : .returned r ∉ ns := by
  cases h <;> simp

theorem does (u : Party) :
    ∃ s t, (Database.prepare u.driver).Does s ((Moment.calls ns).map .call) a t := by
  cases h with
  | ready => exact ⟨{ initialized := true }, _, Database.prepare_does_ready u rfl⟩
  | tried a => exact ⟨{}, _, Database.prepare_does_init u rfl a⟩

end Preparation

theorem Action.Does.bind_pure {α β : Type} {x : Action Paths α} {s t : Shared} {acts : List Act}
    {r : Except Error α} (h : x.Does s acts r t) (f : α → β) :
    (x >>= fun a => pure (f a)).Does s acts (r.map f) t := by
  cases r with
  | error e => exact does_bind.mpr (.inl ⟨e, rfl, h⟩)
  | ok a =>
    exact does_bind.mpr (.inr ⟨a, t, acts, [], (List.append_nil _).symm, h,
      (does_pure _).mpr ⟨rfl, rfl, rfl⟩⟩)

namespace Course

variable {st : Gate.Stage} {ms : List Moment}

/-- A task that wanted a connection and whose initialization failed. -/
theorem of_failed {e : Error} (h : Course st ms) (hcalled : .called .acquire ∈ ms)
    (hfailed : .answered (.init (.error e)) ∈ ms) :
    ms = [.returned (.error e), .answered (.init (.error e)), .sent .init, .called .acquire] := by
  have hready : ∀ {ns}, Preparation (.ok ()) ns → .answered (.init (.error e)) ∉ ns := by
    intro ns hns
    cases hns <;> simp
  cases h with
  | prepared hns => simp [hready hns] at hfailed
  | asked hns => simp [hready hns] at hfailed
  | acquired hns a => simp [hready hns] at hfailed
  | refused e' => simp_all
  | initialized hns => cases hns <;> simp at hcalled
  | _ => simp at hfailed

theorem does_acquire (u : Party) {ns : List Moment} (h : Preparation (.ok ()) ns)
    (a : Except Error Connection) : ∃ s t,
      (Database.acquire u.driver).Does s ((Moment.calls ns).map .call ++ [.call (.acquire a)]) a t := by
  obtain ⟨s, t, hprepare⟩ := h.does u
  exact ⟨s, t, does_bind.mpr (.inr ⟨(), t, _, _, rfl, hprepare,
    (Action.does_call _).mpr ⟨rfl, rfl⟩⟩)⟩

/-- What happened to a task that is done is a path of what it does. -/
theorem does (u : Party) (h : Course st ms) {k : Want} {r : Except Error (Option Connection)}
    (hcalled : .called k ∈ ms) (hreturned : .returned r ∈ ms) :
    ∃ s t, (k.perform u).Does s ((Moment.calls ms).map .call) r t := by
  cases h with
  | acquired hns a =>
    obtain rfl : k = .acquire := by simpa [hns.called_notMem] using hcalled
    obtain rfl : r = a.map some := by simpa [hns.returned_notMem] using hreturned
    obtain ⟨s, t, hacquire⟩ := does_acquire u hns a
    refine ⟨s, t, ?_⟩
    simpa [Want.perform, Moment.call?] using hacquire.bind_pure some
  | refused e =>
    obtain rfl : k = .acquire := by simpa using hcalled
    obtain rfl : r = .error e := by simpa using hreturned
    have hacquire : (Database.acquire u.driver).Does {} [.call (.init (.error e))] (.error e) {} :=
      does_bind.mpr (.inl ⟨e, rfl, Database.prepare_does_init u rfl (.error e)⟩)
    exact ⟨{}, {}, hacquire.bind_pure some⟩
  | initialized hns =>
    obtain rfl : k = .init := by simpa [hns.called_notMem] using hcalled
    obtain rfl : r = _ := by simpa [hns.returned_notMem] using hreturned
    obtain ⟨s, t, hprepare⟩ := hns.does u
    refine ⟨s, t, ?_⟩
    simpa [Want.perform, Moment.call?] using hprepare.bind_pure fun _ => none
  | skipped =>
    obtain rfl : k = .destroy := by simpa using hcalled
    obtain rfl : r = .ok none := by simpa using hreturned
    have hdestroy := (Database.does_destroy_iff u (s := {})).mpr ⟨rfl, rfl, rfl⟩
    exact ⟨{}, {}, hdestroy.bind_pure fun _ => none⟩
  | destroyed a =>
    obtain rfl : k = .destroy := by simpa using hcalled
    obtain rfl : r = a.map fun _ => none := by simpa using hreturned
    have hdestroy : (u.handle .pool).destroy.Does { initialized := true } [.call (.destroy a)] a
        { initialized := true } := (Database.does_destroy_iff u).mpr ⟨rfl, rfl⟩
    exact ⟨_, _, hdestroy.bind_pure fun _ => none⟩
  | prepared hns => simp [hns.returned_notMem] at hreturned
  | asked hns => simp [hns.returned_notMem] at hreturned
  | _ => simp at hreturned

end Course

namespace Gate

variable {ι : Type} [DecidableEq ι] {u : Party} {g g' : Gate ι}

/-- What holds of every gate. -/
structure Sound (g : Gate ι) : Prop where
  opened : g.shared.initialized = true ↔ Succeeded g.seen
  running : running g.seen = g.visitor.toList
  closed : g.visitor.isSome = true → g.shared.initialized = false
  prepared {i : ι} : g.stage i = .prepared → g.shared.initialized = true
  lawful : Lawful g.seen
  course (i : ι) : Course (g.stage i) (own g.seen i)

theorem Sound.go (h : g.Sound) {i : ι} {s : Stage} {ms : List Moment} {t : Shared}
    {visitor : Option ι} (hkeeps : g.shared.initialized = true → t.initialized = true)
    (hopened : t.initialized = true ↔ Succeeded (ms.map (Prod.mk i) ++ g.seen))
    (hrunning : Gate.running (ms.map (Prod.mk i) ++ g.seen) = visitor.toList)
    (hclosed : visitor.isSome = true → t.initialized = false)
    (hprepared : s = .prepared → t.initialized = true)
    (hlawful : Lawful (ms.map (Prod.mk i) ++ g.seen))
    (hcourse : Course s (ms ++ own g.seen i)) :
    ({ g with shared := t, visitor }.go i s ms).Sound where
  opened := hopened
  running := hrunning
  closed := hclosed
  prepared {j} hj := by
    by_cases hji : j = i
    · subst hji
      exact hprepared ((Function.update_self ..).symm.trans hj)
    · exact hkeeps (h.prepared ((Function.update_of_ne hji ..).symm.trans hj))
  lawful := hlawful
  course j := by
    by_cases hji : j = i
    · subst hji
      show Course (Function.update g.stage j s j) (own (ms.map (Prod.mk j) ++ g.seen) j)
      rw [Function.update_self, own_go_self]
      exact hcourse
    · show Course (Function.update g.stage i s j) (own (ms.map (Prod.mk i) ++ g.seen) j)
      rw [Function.update_of_ne hji, own_go_of_ne hji]
      exact h.course j

/-- A preparation is over. -/
theorem Sound.goOn (h : g.Sound) {i : ι} {k : Want} {ms ns : List Moment} {t : Shared}
    {visitor : Option ι} {r : Except Error Unit} (hk : k ≠ .destroy)
    (hkeeps : g.shared.initialized = true → t.initialized = true)
    (hopened : t.initialized = true ↔ Succeeded (ms.map (Prod.mk i) ++ g.seen))
    (hrunning : Gate.running (ms.map (Prod.mk i) ++ g.seen) = visitor.toList)
    (hclosed : visitor.isSome = true → t.initialized = false)
    (hr : r = .ok () → t.initialized = true)
    (hlawful : Lawful (ms.map (Prod.mk i) ++ g.seen))
    (hown : own g.seen i = ns ++ [.called k]) (hpreparation : Preparation r (ms ++ ns)) :
    ({ g with shared := t, visitor }.goOn i ms k r).Sound := by
  -- only a task that is to get a connection goes on
  have hdone : ∀ r', Course .done (.returned r' :: ms ++ own g.seen i) →
      ({ g with shared := t, visitor }.go i .done (.returned r' :: ms)).Sound := by
    intro r' hcourse
    refine h.go hkeeps ?_ hrunning hclosed nofun ?_ hcourse
    · simp [succeeded_cons, hopened]
    · exact hlawful.cons nofun nofun ⟨nofun, nofun⟩
  cases k with
  | init =>
    refine hdone _ ?_
    rw [hown, List.cons_append, ← List.append_assoc]
    exact .initialized hpreparation
  | acquire =>
    cases r with
    | ok a =>
      refine h.go hkeeps hopened hrunning hclosed (fun _ => hr rfl) hlawful ?_
      rw [hown, ← List.append_assoc]
      exact .prepared hpreparation
    | error e =>
      refine hdone _ ?_
      rw [hown, List.cons_append, ← List.append_assoc]
      generalize ms ++ ns = ps at hpreparation
      cases hpreparation
      exact .refused e
  | destroy => exact absurd rfl hk

theorem Step.sound (hstep : Step u g g') (h : g.Sound) : g'.Sound := by
  cases hstep with
  | @call i k hi hk =>
    have hown := (hi ▸ h.course i).of_idle
    refine h.go id ?_ h.running h.closed nofun (h.lawful.cons nofun nofun ⟨?_, nofun⟩) ?_
    · simp [succeeded_cons, h.opened]
    · simpa using hk
    · rw [hown]
      exact .called hk
  | @pass i k r t hi hdoes =>
    obtain ⟨hk, hown⟩ := (hi ▸ h.course i).of_preparing
    obtain ⟨hopen, -, rfl, rfl⟩ | ⟨-, hacts, -⟩ := Database.does_prepare u hdoes
    · have hown : own g.seen i = [] ++ [.called k] := hown
      exact h.goOn hk id h.opened h.running h.closed (fun _ => hopen) h.lawful hown .ready
    · cases hacts
  | @enter i k a r t hi hfree hdoes =>
    obtain ⟨hk, hown⟩ := (hi ▸ h.course i).of_preparing
    obtain ⟨-, hacts, -⟩ | ⟨hclosed, -⟩ := Database.does_prepare u hdoes
    · cases hacts
    have hrunning : Gate.running g.seen = [] := by rw [h.running, hfree]; rfl
    have hnone : ¬ Succeeded g.seen := by rw [← h.opened, hclosed]; nofun
    refine h.go id ?_ ?_ (fun _ => hclosed) nofun ?_ ?_
    · simp [succeeded_cons, h.opened]
    · exact congrArg (List.cons i) hrunning
    · exact h.lawful.cons nofun (fun _ => ⟨hnone, hrunning⟩) ⟨nofun, nofun⟩
    · rw [hown]
      exact .inside hk
  | @leave i k a r t hi hvisitor hdoes =>
    obtain ⟨hk, hown⟩ := (hi ▸ h.course i).of_inside
    -- the one initialization under way was that of this task
    have hrunning : Gate.running ((i, .answered (.init a)) :: g.seen) = [] := by
      rw [Gate.running, h.running, hvisitor]
      exact List.erase_cons_head ..
    have hlawful : Lawful ((i, .answered (.init a)) :: g.seen) :=
      h.lawful.cons nofun nofun ⟨nofun, nofun⟩
    obtain ⟨-, hacts, -⟩ | ⟨hclosed, hacts, hend⟩ := Database.does_prepare u hdoes
    · cases hacts
    cases hacts
    have hpreparation : Preparation a ([.answered (.init a)] ++ [.sent .init]) := .tried a
    obtain ⟨e, rfl, rfl⟩ | ⟨rfl, rfl⟩ := hend
    · refine h.goOn hk id ?_ hrunning nofun nofun hlawful hown hpreparation
      simp [succeeded_cons, h.opened]
    · refine h.goOn hk (fun _ => rfl) ?_ hrunning nofun (fun _ => rfl) hlawful hown hpreparation
      simp [succeeded_cons]
  | @ask i hi =>
    obtain ⟨ns, hns, hown⟩ := (hi ▸ h.course i).of_prepared
    have hopen := h.opened.mp (h.prepared hi)
    refine h.go id ?_ h.running h.closed nofun ?_ ?_
    · simp [succeeded_cons, h.opened]
    · exact h.lawful.cons (fun _ => hopen) nofun ⟨nofun, nofun⟩
    · rw [hown]
      exact .asked hns
  | @acquired i a r t hi hdoes =>
    obtain ⟨ns, hns, hown⟩ := (hi ▸ h.course i).of_asked_acquire
    obtain ⟨hacts, rfl⟩ := (Action.does_call _).mp hdoes
    cases hacts
    have hanswered : Lawful ((i, .answered (.acquire a)) :: g.seen) :=
      h.lawful.cons nofun nofun ⟨nofun, nofun⟩
    refine h.go id ?_ h.running h.closed nofun ?_ ?_
    · simp [succeeded_cons, h.opened]
    · exact hanswered.cons nofun nofun ⟨nofun, nofun⟩
    · rw [hown]
      exact .acquired hns a
  | @skip i r t hi hdoes =>
    have hown := (hi ▸ h.course i).of_idle
    obtain ⟨hclosed, -, rfl, rfl⟩ | ⟨-, hacts, -⟩ := Database.does_destroy u hdoes
    · have hnone : ¬ Succeeded g.seen := by rw [← h.opened, hclosed]; nofun
      refine h.go id ?_ h.running h.closed nofun ?_ ?_
      · simp [succeeded_cons, h.opened]
      · exact h.lawful.destroying hown ⟨nofun, fun h => absurd h hnone⟩ (.inr ⟨_, rfl⟩)
      · rw [hown]
        exact .skipped
    · cases hacts
  | @destroy i a r t hi hdoes =>
    have hown := (hi ▸ h.course i).of_idle
    obtain ⟨-, hacts, -⟩ | ⟨hopen, -⟩ := Database.does_destroy u hdoes
    · cases hacts
    refine h.go id ?_ h.running h.closed nofun ?_ ?_
    · simp [succeeded_cons, h.opened]
    · exact h.lawful.destroying hown ⟨fun _ => h.opened.mp hopen, fun _ => rfl⟩ (.inl rfl)
    · rw [hown]
      exact .destroying
  | @destroyed i a r t hi hdoes =>
    have hown := (hi ▸ h.course i).of_asked_destroy
    obtain ⟨-, hacts, -⟩ | ⟨hopen, hacts, rfl⟩ := Database.does_destroy u hdoes
    · cases hacts
    cases hacts
    have hanswered : Lawful ((i, .answered (.destroy a)) :: g.seen) :=
      h.lawful.cons nofun nofun ⟨nofun, nofun⟩
    refine h.go id ?_ h.running h.closed nofun ?_ ?_
    · simp [succeeded_cons, h.opened]
    · exact hanswered.cons nofun nofun ⟨nofun, nofun⟩
    · rw [hown]
      exact .destroyed a

theorem Steps.sound (h : Steps u g g') (hg : g.Sound) : g'.Sound := by
  induction h with
  | refl => exact hg
  | tail _ hstep ih => exact hstep.sound ih

theorem sound_start : ({} : Gate ι).Sound where
  opened := ⟨nofun, nofun⟩
  running := rfl
  closed := nofun
  prepared := nofun
  lawful := .nil
  course _ := .idle

/-- A driver is initialized before the first connection is asked for, and once: not again when it has
succeeded, and not while it is under way.  A task whose own initialization fails gets that error and
no connection, destroying asks the driver if it was initialized before, and what a task does by
itself is what it would do alone. -/
theorem opens_once (u : Party) {g : Gate ι} (h : Steps u {} g) :
    (∀ i before, (i, .sent .acquire) :: before <:+ g.seen → Succeeded before) ∧
    (∀ i before, (i, .sent .init) :: before <:+ g.seen →
      ¬ Succeeded before ∧ running before = []) ∧
    (∀ i e, (i, .called .acquire) ∈ g.seen → (i, .answered (.init (.error e))) ∈ g.seen →
      (i, .sent .acquire) ∉ g.seen ∧ ∀ r, (i, .returned r) ∈ g.seen ↔ r = .error e) ∧
    (∀ i before, (i, .called .destroy) :: before <:+ g.seen →
      ((i, .sent .destroy) ∈ g.seen ↔ Succeeded before)) ∧
    ∀ i k r, (i, .called k) ∈ g.seen → (i, .returned r) ∈ g.seen →
      ∃ s t, (k.perform u).Does s ((Moment.calls (own g.seen i)).map .call) r t := by
  obtain ⟨-, -, -, -, hlawful, hcourse⟩ := h.sound sound_start
  refine ⟨fun i before => hlawful.acquire, fun i before => hlawful.init, ?_,
    fun i before => hlawful.destroy, ?_⟩
  · intro i e hcalled hfailed
    simp only [← mem_own] at hcalled hfailed ⊢
    rw [(hcourse i).of_failed hcalled hfailed]
    simp
  · intro i k r hcalled hreturned
    rw [← mem_own] at hcalled hreturned
    exact (hcourse i).does u hcalled hreturned

/-- A first initialization fails while a second task waits for its turn and a third has nothing to
destroy; then the second one succeeds, and a fourth task destroys. -/
theorem opens_once_retried :
    let e : Error := .connection .noDriver
    ∃ g : Gate Nat, Steps ⟨.postgres, none, []⟩ {} g ∧
      g.seen = [(3, .sent .destroy), (3, .called .destroy), (1, .sent .acquire),
        (1, .answered (.init (.ok ()))), (1, .sent .init),
        (0, .returned (.error e)), (0, .answered (.init (.error e))),
        (2, .returned (.ok none)), (2, .called .destroy), (0, .sent .init),
        (1, .called .acquire), (0, .called .acquire)] ∧
      (0, .sent .acquire) ∉ g.seen := by
  intro e
  let u : Party := ⟨.postgres, none, []⟩
  have hfails := Database.prepare_does_init u (s := {}) rfl (.error e)
  have hsucceeds := Database.prepare_does_init u (s := {}) rfl (.ok ())
  have hskips : (u.handle .pool).destroy.Does {} [] (.ok ()) {} :=
    (Database.does_destroy_iff u).mpr ⟨rfl, rfl, rfl⟩
  have hdestroys : (u.handle .pool).destroy.Does { initialized := true }
      [.call (.destroy (.ok ()))] (.ok ()) { initialized := true } :=
    (Database.does_destroy_iff u).mpr ⟨rfl, rfl⟩
  let g₁ := (({} : Gate Nat).go 0 (.preparing .acquire) [.called .acquire]).go 1
    (.preparing .acquire) [.called .acquire]
  let g₂ := { g₁ with visitor := some 0 }.go 0 (.inside .acquire) [.sent .init]
  let g₃ := g₂.go 2 .done [.returned (.ok none), .called .destroy]
  let g₄ := { g₃ with visitor := none }.goOn 0 [.answered (.init (.error e))] .acquire (.error e)
  let g₅ := { g₄ with visitor := some 1 }.go 1 (.inside .acquire) [.sent .init]
  let g₆ := { g₅ with shared := { initialized := true }, visitor := none }.goOn 1
    [.answered (.init (.ok ()))] .acquire (.ok ())
  let g₇ := g₆.go 1 (.asked .acquire) [.sent .acquire]
  have hfirst : Steps u {} g₃ :=
    .head (.call (i := 0) (k := .acquire) rfl nofun)
      (.head (.call (i := 1) (k := .acquire) rfl nofun) (.head (.enter (g := g₁) (i := 0) rfl rfl hfails)
        (.single (.skip (g := g₂) rfl hskips))))
  have hsecond : Steps u g₃ g₇ :=
    .head (.leave (g := g₃) rfl rfl hfails) (.head (.enter (g := g₄) (i := 1) rfl rfl hsucceeds)
      (.head (.leave (g := g₅) rfl rfl hsucceeds) (.single (.ask (g := g₆) rfl))))
  have hsteps := (hfirst.trans hsecond).tail (.destroy (g := g₇) (i := 3) rfl hdestroys)
  obtain ⟨-, -, hfailed, -, -⟩ := opens_once u hsteps
  exact ⟨_, hsteps, rfl, (hfailed 0 e (by simp [g₇, g₆, g₅, g₄, g₃, g₂, g₁, go, goOn])
    (by simp [g₇, g₆, g₅, g₄, g₃, g₂, g₁, go, goOn])).1⟩

end Gate

end SqlTree
