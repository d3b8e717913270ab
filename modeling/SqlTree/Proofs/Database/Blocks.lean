import SqlTree.Proofs.Database.Releasing
import SqlTree.Proofs.Database.Requests

/-!
# Transactions in connection blocks

A transaction begun by hand on the handle of a connection block leaves the connection to the block.
Its requests are refused once the block has given the connection back, and not before: that it was
committed or rolled back makes no difference to them (`World.refused_iff_released`).
-/

namespace SqlTree

open Call

namespace World

/-- From the world `w` to `v`, connections stay in their bindings or leave them; new ones may come
into new bindings. -/
structure Unmoved (w v : World) : Prop where
  length_le : w.shared.bindings.length ≤ v.shared.bindings.length
  acquired_le : acquired w.calls ≤ acquired v.calls
  holds : ∀ i c, v.holds? i = some c →
    w.holds? i = some c ∨ w.shared.bindings.length ≤ i ∧ acquired w.calls ≤ c.id

variable {w v v' : World} {i : Nat} {c : Connection}

namespace Unmoved

theorem refl (w : World) : w.Unmoved w := ⟨Nat.le_refl _, Nat.le_refl _, fun _ _ h => .inl h⟩

theorem trans (h : w.Unmoved v) (h' : v.Unmoved v') : w.Unmoved v' := by
  refine ⟨h.length_le.trans h'.length_le, h.acquired_le.trans h'.acquired_le, fun i c hc => ?_⟩
  obtain hc | ⟨hi, hid⟩ := h'.holds i c hc
  · exact h.holds i c hc
  · exact .inr ⟨h.length_le.trans hi, h.acquired_le.trans hid⟩

/-- Calls that leave the bindings alone. -/
theorem say (calls : List Call) (hcalls : v.calls = w.calls ++ calls)
    (hbindings : v.shared.bindings = w.shared.bindings) : w.Unmoved v := by
  refine ⟨by rw [hbindings], ?_, fun i c hc => .inl ?_⟩
  · rw [hcalls, acquired_append]
    omega
  · rwa [holds?_congr hbindings] at hc

theorem put {b : Binding} (h : ∀ j d, (w.put i b).holds? j = some d → w.holds? j = some d) :
    w.Unmoved (w.put i b) :=
  ⟨(List.length_modify ..).ge, Nat.le_refl _, fun j d hd => .inl (h j d hd)⟩

theorem empty (w : World) (i : Nat) : w.Unmoved (w.put i ⟨none, false⟩) :=
  put fun _ _ hd => (holds?_emptied hd).2

/-- A connection of the pool is a new one. -/
theorem hold {u : Client} (h : (Database.acquire u.driver).on w = (.ok c, v)) :
    w.Unmoved (v.bind ⟨some c, false⟩) := by
  obtain ⟨calls, a', initialized, -, hon, hid⟩ := Database.on_acquire u w
  obtain ⟨rfl, rfl⟩ := Prod.mk.inj (h.symm.trans hon)
  refine ⟨?_, ?_, fun i d hd => ?_⟩
  · simp [bind, World.say, setInitialized]
  · simp only [calls_bind, setInitialized, calls_say, acquired_append]
    omega
  · obtain ⟨marked, hb⟩ := exists_of_holds? hd
    obtain hb | ⟨hi, hb⟩ := binding?_bind_cases hb
    · exact .inl (holds?_of_binding? hb)
    · obtain ⟨hdc, -⟩ := Binding.mk.inj hb
      obtain rfl := Option.some.inj hdc
      exact .inr ⟨hi.ge, by rw [hid d rfl]⟩

end Unmoved

end World

namespace Scene

variable {u : Client} {s t : Scene}

theorem unmoved_settle (s : Scene) (i : Nat) : s.world.Unmoved (s.settle i).world := by
  rw [settle]
  split
  · exact .refl _
  · split
    · next c _ => exact (World.Unmoved.empty _ i).trans (.say [.release c] rfl rfl)
    · exact .empty _ i
    · exact .refl _

theorem unmoved_giveBack (s : Scene) (l : Lease) : s.world.Unmoved (s.giveBack l).world := by
  cases l with
  | pooled c => exact .say [.release c] rfl rfl
  | pinned i => exact s.unmoved_settle i

theorem Step.unmoved (h : Step u s t) : s.world.Unmoved t.world := by
  cases h with
  | aside hbindings hcalls _ => exact .say _ hcalls hbindings
  | lease h =>
    obtain ⟨calls, a, initialized, -, hon, -⟩ := Database.on_acquire u s.world
    obtain ⟨-, rfl⟩ := Prod.mk.inj (h.symm.trans hon)
    exact .say calls rfl rfl
  | hold h =>
    obtain ⟨c, opened, hacquire, rfl, rfl⟩ := hold_eq h
    exact .hold hacquire
  | share => exact .refl _
  | lock => exact .refl _
  | use => exact .say _ rfl rfl
  | mark _ hc inTransaction =>
    exact .put fun j d hd => by rwa [World.holds?_marked hc inTransaction] at hd
  | letGo =>
    rw [Binding.on_release]
    exact (World.Unmoved.empty _ _).trans (.say _ rfl rfl)
  | stream => exact .say _ rfl rfl
  | advance => exact .refl _
  | read => exact .refl _
  | @stop s l => exact s.unmoved_giveBack l
  | @giveUp s l => exact s.unmoved_giveBack l
  | @drop s i => exact s.unmoved_settle i
  | undo => exact .say _ rfl rfl
  | undone => exact .say _ rfl rfl

theorem Steps.unmoved (h : Steps u s t) : s.world.Unmoved t.world := by
  induction h with
  | refl => exact .refl _
  | tail _ hstep ih => exact ih.trans hstep.unmoved

end Scene

namespace World

variable (u : Client) {w : World} {i : Nat} {c : Connection}

/-- In any run, a connection is in its binding until it is given back. -/
theorem holds?_run (before later : List Operation) (hc : (new.run u before).holds? i = some c) :
    let v := (new.run u before).run u later
    .release c ∈ v.calls ∧ v.holds? i = none ∨ .release c ∉ v.calls ∧ v.holds? i = some c := by
  intro v
  let w := new.run u before
  have hw : w.Sound := (sound_new.afterAll u before).sound
  obtain ⟨hs, hbefore⟩ := Scene.exists_steps_run (u := u) Scene.sound_calm before
  have hcalm : (Scene.calm w hs).Sound := hbefore.sound Scene.sound_calm
  obtain ⟨hs', hlater⟩ := Scene.exists_steps_run (u := u) hcalm later
  have hv : (Scene.calm v hs').Sound := hlater.sound hcalm
  have hunmoved : w.Unmoved v := hlater.unmoved
  obtain ⟨marked, hb⟩ := exists_of_holds? hc
  have hlt : i < w.shared.bindings.length := (List.getElem?_eq_some_iff.mp hb).1
  have hid : c.id < acquired w.calls := hw.taken hb
  have hheld : ∀ d, d ∈ (Scene.calm v hs').held ↔ ∃ j, v.holds? j = some d := fun d => by
    rw [← mem_bound]
    simp [Scene.held, Scene.taken, Scene.calm]
  by_cases hrelease : .release c ∈ v.calls
  · refine .inl ⟨hrelease, ?_⟩
    cases hd : v.holds? i with
    | none => rfl
    | some d =>
      obtain hd' | ⟨hle, -⟩ := hunmoved.holds i d hd
      · obtain rfl : c = d := Option.some.inj (hc.symm.trans hd')
        have hmem := (hheld c).mpr ⟨i, hd⟩
        exact absurd (mem_released.mpr hrelease) (hv.accounts.not_mem_released hmem)
      · omega
  · refine .inr ⟨hrelease, ?_⟩
    have hmem := (hv.accounts.mem_of_id_lt (hid.trans_le hunmoved.acquired_le)).resolve_right
      fun hmem => hrelease (mem_released.mp hmem)
    obtain ⟨j, hj⟩ := (hheld c).mp hmem
    -- nobody has moved it into another binding
    obtain hj' | ⟨-, hle⟩ := hunmoved.holds j c hj
    · obtain ⟨marked', hb'⟩ := exists_of_holds? hj'
      rwa [hw.apart hb hb']
    · omega

section Start

variable {s : TransactionSettings} {t : Controlled} {db : Database Taped} {begun : World}

/-- A transaction begun by hand in a block shares the binding of the block. -/
theorem on_start_connection
    (h : ((u.handle (.connection i)).startTransaction s).on w = (.ok (t, db), begun)) :
    t.pinned = ⟨i, false⟩ ∧ db = u.handle (.transaction i) ∧ ∃ c, begun.holds? i = some c := by
  rw [Database.startTransaction, Action.on_bind_ok (Database.on_requireDriver u w _)] at h
  cases hc : w.holds? i with
  | none =>
    rw [Action.on_bind_error (Database.on_begin_connection_none u s hc)] at h
    cases h
  | some c =>
    obtain ⟨marked, hb⟩ := exists_of_holds? hc
    have hbegin := Database.on_begin_connection u s hb rfl
    cases hreply : u.replies.begin w.calls c s with
    | error e =>
      rw [hreply] at hbegin
      rw [Action.on_bind_error hbegin] at h
      cases h
    | ok a =>
      rw [hreply] at hbegin
      rw [Action.on_bind_ok hbegin] at h
      cases h
      refine ⟨rfl, rfl, c, ?_⟩
      exact holds?_of_binding? (binding?_put (w := w.say [.begin c s (.ok ())]) hb _)

/-- Ending a transaction leaves the connection of its block where it is. -/
theorem release_mem_finish_iff (ht : t.pinned.owned = false) (commit : Bool) (scope : Scope)
    (w : World) :
    .release c ∈ ((t.finish (u.handle scope) commit).on w).2.calls ↔ .release c ∈ w.calls := by
  cases hended : t.endedIn w with
  | true => rw [Controlled.on_finish_ended u scope hended]
  | false =>
    cases hd : w.holds? t.pinned.binding with
    | none =>
      rw [Controlled.on_finish_none u scope hended hd]
      exact Iff.rfl
    | some d =>
      obtain ⟨marked, hb⟩ := exists_of_holds? hd
      rw [Controlled.on_finish u scope hended hb rfl]
      cases commit <;> simp [left, ht, setEnded]

/-- A transaction begun by hand in a connection block, in any run: its end gives nothing back, and
its requests are refused exactly if the block has given its connection back.  Until then each is a
call on that connection, whether or not the transaction was committed or rolled back. -/
theorem refused_iff_released (before : List Operation)
    (h : ((u.handle (.connection i)).startTransaction s).on (new.run u before) =
      (.ok (t, db), begun)) :
    ∃ c, begun.holds? i = some c ∧ ∀ later : List Operation, let v := begun.run u later
      (∀ commit, .release c ∈ ((t.finish db commit).on v).2.calls ↔ .release c ∈ v.calls) ∧
        ∀ r : Request, r.Compiles u →
          ((r.perform t db).on v = (r.refused (.transaction .finished), v) ↔
            .release c ∈ v.calls) ∧
          (.release c ∉ v.calls →
            ∃ x a, r.Sends u c x a ∧ (r.perform t db).on v = (a, v.say [x])) := by
  obtain ⟨hpinned, rfl, c, hc⟩ := on_start_connection u h
  have hbegun : begun = new.run u (before ++ [.start (.connection i) s]) := by
    rw [run_concat]
    exact (congrArg Prod.snd h).symm
  refine ⟨c, hc, fun later => ⟨fun commit => ?_, fun r hr => ?_⟩⟩
  · exact release_mem_finish_iff u (by rw [hpinned]) commit _ _
  · have hholds := holds?_run u (before ++ [.start (.connection i) s]) later (hbegun ▸ hc)
    rw [← hbegun] at hholds
    have hi : i = t.pinned.binding := by rw [hpinned]
    rw [hi] at hholds ⊢
    obtain ⟨hrelease, hnone⟩ | ⟨hrelease, hsome⟩ := hholds
    · exact ⟨iff_of_true (r.on_perform_none u hnone hr) hrelease, fun h => absurd hrelease h⟩
    · obtain ⟨x, a, hsends, hon⟩ := r.on_perform u hsome hr
      refine ⟨iff_of_false (fun hrefused => ?_) hrelease, fun _ => ⟨x, a, hsends, hon⟩⟩
      -- a call that was made is on the tape
      have hcalls := congrArg (·.2.calls.length) (hon.symm.trans hrefused)
      simp at hcalls

/-- A savepoint of a transaction that was committed is sent while the block goes on. -/
theorem sends_savepoint_committed :
    let t : Controlled := ⟨⟨0, false⟩, 0⟩
    let committed := new.run .granting [.hold, .start (.connection 0) {}, .commit t]
    ∃ x a, (Request.savepoint "s").Sends .granting ⟨0⟩ x a ∧
      ((Request.savepoint "s").perform t (Client.granting.handle (.transaction 0))).on committed =
        (a, committed.say [x]) := by
  intro t committed
  have hstart : ((Client.granting.handle (.connection 0)).startTransaction {}).on
      (new.run .granting [.hold]) = (.ok (t, Client.granting.handle (.transaction 0)),
        new.run .granting [.hold, .start (.connection 0) {}]) := rfl
  obtain ⟨c, hc, h⟩ := refused_iff_released .granting [.hold] hstart
  obtain rfl : ⟨0⟩ = c := Option.some.inj hc
  have hcalls : committed.calls = [.init (.ok ()), .acquire (.ok ⟨0⟩), .begin ⟨0⟩ {} (.ok ()),
    .commit ⟨0⟩ (.ok ())] := rfl
  refine ((h [.commit t]).2 (.savepoint "s") trivial).2 ?_
  show .release ⟨0⟩ ∉ committed.calls
  rw [hcalls]
  simp

end Start

end World

/-- In a connection block, a transaction that was committed still sets savepoints. -/
theorem Client.perform_granting :
    let block := (granting.handle .pool).connection fun db => do
      let (t, db) ← db.startTransaction {}
      t.commit db
      (Request.savepoint "s").perform t db
    (block.on .new).1 = .ok .done ∧ (block.on .new).2.calls =
      [.init (.ok ()), .acquire (.ok ⟨0⟩), .begin ⟨0⟩ {} (.ok ()), .commit ⟨0⟩ (.ok ()),
        .savepoint ⟨0⟩ "s" (.ok ()), .release ⟨0⟩] := ⟨rfl, rfl⟩

end SqlTree
