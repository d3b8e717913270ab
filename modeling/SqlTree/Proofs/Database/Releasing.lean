import SqlTree.Proofs.Database.Custody
import Mathlib.Data.Multiset.Basic

/-!
# Connections that are given back once

Every operation of a handle is a run of single steps (`Scene.exists_steps_after`), so that what
holds of every scene holds of every program: a connection that was given out is given back at most
once, is not used afterwards, and has been given back once nobody holds it (`Scene.released_once`).
-/

namespace SqlTree

open Call

namespace Scene

/-- Nobody borrows a connection, and no stream or task is under way. -/
def calm (w : World) (hs : Multiset Nat) : Scene := { world := w, handles := hs }

/-- Somebody borrows what is in a binding. -/
def locked (w : World) (hs : Multiset Nat) (i : Nat) : Scene :=
  { world := w, handles := hs, leases := .pinned i ::ₘ 0 }

variable {u : Client} {w v : World} {hs : Multiset Nat} {i : Nat} {c : Connection} {x : Call}

theorem Sound.mem_handles (h : (calm w hs).Sound) (hc : w.holds? i = some c) : i ∈ hs :=
  (h.kept i c hc).resolve_right (Multiset.notMem_zero _)

theorem sound_calm : (calm .new 0).Sound := sound_new

theorem settle_of_mem {s : Scene} (h : i ∈ s.handles) : s.settle i = s := if_pos (.inl h)

/-- What is in a binding is borrowed for a while. -/
theorem Steps.locked (hi : i ∈ hs) (h : Steps u (locked w hs i) (locked v hs i)) :
    Steps u (calm w hs) (calm v hs) := by
  have hlock : Step u (calm w hs) (Scene.locked w hs i) :=
    .lock (s := calm w hs) hi (Multiset.notMem_zero _)
  have hgive : Step u (Scene.locked v hs i) ((calm v hs).giveBack (.pinned i)) :=
    .giveUp (s := calm v hs)
  rw [show (calm v hs).giveBack (.pinned i) = calm v hs from settle_of_mem (s := calm v hs) hi]
    at hgive
  exact (h.head hlock).tail hgive

theorem mem_locked : .pinned i ∈ (locked w hs i).leases :=
  Multiset.mem_cons_self (Lease.pinned i) 0

theorem Step.lockedUse (hc : w.holds? i = some c) (hx : x.connection? = some c)
    (hplain : x.isPlain = true) : Step u (Scene.locked w hs i) (Scene.locked (w.say [x]) hs i) :=
  .use (s := Scene.locked w hs i) (l := .pinned i) mem_locked hc hx hplain

theorem Step.lockedMark (hc : w.holds? i = some c) (inTransaction : Bool) :
    Step u (Scene.locked w hs i) (Scene.locked (w.put i ⟨some c, inTransaction⟩) hs i) :=
  .mark (s := Scene.locked w hs i) mem_locked hc inTransaction

theorem Step.lockedLetGo :
    Step u (Scene.locked w hs i) (Scene.locked ((Binding.release u.driver i).on w).2 hs i) :=
  .letGo (s := Scene.locked w hs i) mem_locked

/-- A call on a bound connection. -/
theorem steps_use (h : (calm w hs).Sound) (hc : w.holds? i = some c) (hx : x.connection? = some c)
    (hplain : x.isPlain = true) : Steps u (calm w hs) (calm (w.say [x]) hs) :=
  .locked (h.mem_handles hc) (.single (.lockedUse hc hx hplain))

/-- A transaction leaves its binding. -/
theorem steps_left {p : Pinned} (hc : w.holds? p.binding = some c) :
    Steps u (Scene.locked w hs p.binding) (Scene.locked (w.left p c) hs p.binding) := by
  rw [World.left]
  split
  · have hgo : Step u (Scene.locked w hs p.binding) _ := .lockedLetGo
    rw [Binding.on_release, hc] at hgo
    exact .single hgo
  · exact .single (.lockedMark hc false)

/-- Calls that no connection has to do with. -/
theorem steps_aside {xs : List Call} (hbindings : v.shared.bindings = w.shared.bindings)
    (hcalls : v.calls = w.calls ++ xs)
    (hplain : ∀ x ∈ xs, x.isPlain = true ∧ x.connection? = none) :
    Steps u (calm w hs) (calm v hs) :=
  .single (.aside (s := calm w hs) hbindings hcalls hplain)

theorem steps_acquire_error {e : Error} (h : (Database.acquire u.driver).on w = (.error e, v)) :
    Steps u (calm w hs) (calm v hs) := by
  obtain ⟨calls, a, initialized, hopens, hon, -⟩ := Database.on_acquire u w
  obtain ⟨rfl, rfl⟩ := Prod.mk.inj (h.symm.trans hon)
  exact steps_aside rfl rfl hopens.calls_error

/-- What is done with a connection, whoever lends it. -/
def Borrows (u : Client) (c : Connection) (v : World) (x : Call) : Prop :=
  ∀ (s : Scene) (l : Lease), s.world = v → v.lent? l = some c →
    Steps u { s with leases := l ::ₘ s.leases } (giveBack { s with world := v.say [x] } l)

theorem borrows_use (hx : x.connection? = some c) (hplain : x.isPlain = true) :
    Borrows u c v x := by
  rintro s l rfl hc
  exact (Relation.ReflTransGen.single
    (.use (s := { s with leases := l ::ₘ s.leases }) (Multiset.mem_cons_self ..) hc hx hplain)).tail
    (.giveUp (s := { s with world := s.world.say [x] }))

/-- A stream whose reader goes gives its lease up. -/
theorem borrows_stream (q : Compiled) (n : Nat) (chunks : List (Except Error QueryResult)) :
    Borrows u c v (.stream c q n chunks) := by
  rintro s l rfl hc
  let s' : Scene := { s with world := s.world.say [.stream c q n chunks] }
  let x : Stream := { task := .fetching chunks }
  have hstep : x.close.step? u.plugins = some { x.close with task := .ended } := by
    cases chunks <;> rfl
  refine Relation.ReflTransGen.head (.stream (s := s) hc q n chunks) ?_
  refine Relation.ReflTransGen.head (.read (s := s') (y := x.close) (.inr (.inr rfl))) ?_
  refine Relation.ReflTransGen.head (.advance (s := s') hstep) ?_
  exact .single (.stop (s := s') rfl)

theorem steps_withConnection {α : Type} (h : (calm w hs).Sound) (scope : Scope)
    {use : Driver Taped → Connection → Action Taped α}
    (huse : ∀ c v, ∃ x, ((use u.driver c).on v).2 = v.say [x] ∧ Borrows u c v x) :
    Steps u (calm w hs) (calm (((u.handle scope).withConnection use).on w).2 hs) := by
  have hbound : ∀ i, (u.handle scope).binding? = some i →
      Steps u (calm w hs) (calm (((u.handle scope).withConnection use).on w).2 hs) := fun i hi => by
    cases hc : w.holds? i with
    | none =>
      rw [Database.on_withConnection_none u use hi hc]
    | some c =>
      obtain ⟨x, hx, hborrows⟩ := huse c w
      have hmem := h.mem_handles hc
      rw [Database.on_withConnection u use hi hc, hx]
      have hsteps := hborrows (calm w hs) (.pinned i) rfl hc
      rw [giveBack, settle_of_mem hmem] at hsteps
      exact hsteps.head (.lock (s := calm w hs) hmem (Multiset.notMem_zero _))
  cases scope with
  | connection i => exact hbound i rfl
  | transaction i => exact hbound i rfl
  | pool =>
    rcases hacquire : (Database.acquire u.driver).on w with ⟨a, opened⟩
    cases a with
    | error e =>
      rw [Database.on_withConnection_pool_error u use hacquire]
      exact steps_acquire_error hacquire
    | ok c =>
      obtain ⟨x, hx, hborrows⟩ := huse c opened
      rw [Database.on_withConnection_pool u use hacquire, hx]
      exact (hborrows (calm opened hs) (.pooled c) rfl rfl).head (.lease (s := calm w hs) hacquire)

theorem steps_run (h : (calm w hs).Sound) (scope : Scope) (n : Node) :
    Steps u (calm w hs) (calm (w.after u (.run scope n)) hs) := by
  show Steps u _ (calm (((u.handle scope).run n).on w).2 hs)
  cases hn : u.compile n with
  | error e => rw [Database.on_run_unsent u hn]
  | ok q =>
    rw [Database.on_run_world u hn]
    refine steps_withConnection h scope fun c v => ?_
    rw [Database.executor_eq, Action.on_call_answer]
    exact ⟨_, rfl, borrows_use rfl rfl⟩

theorem steps_stream (h : (calm w hs).Sound) (scope : Scope) (n : Node) (chunkSize : Nat)
    (limit : Option Nat) :
    Steps u (calm w hs) (calm (w.after u (.stream scope n chunkSize limit)) hs) := by
  show Steps u _ (calm (((u.handle scope).stream n chunkSize limit).on w).2 hs)
  cases hn : u.compile n with
  | error e => rw [Database.on_stream_unsent u hn]
  | ok q =>
    rw [Database.on_stream_world u hn]
    refine steps_withConnection h scope fun c v => ?_
    exact ⟨_, congrArg Prod.snd (Database.on_fetched u c q chunkSize v),
      borrows_stream q chunkSize _⟩

/-- A binding is begun on by who borrows it. -/
theorem steps_begun (hc : w.holds? i = some c) (s : TransactionSettings) :
    Steps u (Scene.locked w hs i)
      (Scene.locked ((w.say [.begin c s (.ok ())]).put i ⟨some c, true⟩) hs i) :=
  (Relation.ReflTransGen.single (.lockedUse hc rfl rfl)).tail
    (.lockedMark (w := w.say [.begin c s (.ok ())]) hc true)

/-- All handles of a binding go, one after another. -/
theorem steps_drop (hi : i ∈ hs) :
    ∃ hs', i ∉ hs' ∧ Steps u (calm w hs) ((calm w hs').settle i) := by
  induction hs using Multiset.strongInductionOn with
  | _ hs ih =>
    obtain ⟨rest, rfl⟩ := Multiset.exists_cons_of_mem hi
    have hdrop : Step u (calm w (i ::ₘ rest)) ((calm w rest).settle i) := .drop (s := calm w rest)
    by_cases hrest : i ∈ rest
    · obtain ⟨hs', hfree, hsteps⟩ := ih rest (Multiset.lt_cons_self ..) hrest
      rw [settle_of_mem (s := calm w rest) hrest] at hdrop
      exact ⟨hs', hfree, hsteps.head hdrop⟩
    · exact ⟨rest, hrest, .single hdrop⟩

/-- What was in a binding is given back once nobody refers to it, after a transaction that was left
open is undone. -/
theorem steps_settle (hi : i ∉ hs) (hc : w.holds? i = some c) :
    Steps u ((calm w hs).settle i) (calm (((u.handle .pool).abandon u.driver i).on w).2 hs) := by
  have hfree : ¬ (calm w hs).IsReferenced i := fun h => h.elim hi (Multiset.notMem_zero _)
  obtain ⟨marked, hb⟩ := World.exists_of_holds? hc
  have hb' : (calm w hs).world.binding? i = some ⟨some c, marked⟩ := hb
  rw [settle, if_neg hfree, hb']
  cases marked with
  | false => rw [Database.on_abandon u .pool hb]; rfl
  | true =>
    rw [Database.on_abandon_inTransaction u .pool hb]
    let emptied := w.put i ⟨none, false⟩
    have hundo := Step.undo (u := u) (s := calm emptied hs) (c := c) (u.replies.rollback w.calls c)
    have hundone := Step.undone (u := u) (c := c)
      (s := calm (emptied.say [.rollback c (u.replies.rollback w.calls c)]) hs)
    rw [calm, World.say_say] at hundone
    exact (Relation.ReflTransGen.single hundo).tail hundone

theorem steps_abandon (h : (calm w hs).Sound) (i : Nat) :
    ∃ hs', Steps u (calm w hs) (calm (((u.handle .pool).abandon u.driver i).on w).2 hs') := by
  cases hc : w.holds? i with
  | none =>
    rw [Database.on_abandon_none u .pool hc]
    exact ⟨hs, .refl⟩
  | some c =>
    obtain ⟨hs', hfree, hsteps⟩ := steps_drop (h.mem_handles hc)
    exact ⟨hs', hsteps.trans (steps_settle hfree hc)⟩

theorem steps_begin (h : (calm w hs).Sound) (scope : Scope) (s : TransactionSettings) :
    ∃ hs', Steps u (calm w hs) (calm (w.after u (.begin scope s)) hs') := by
  show ∃ hs', Steps u _ (calm (((u.handle scope).begin u.driver s).on w).2 hs')
  cases scope with
  | transaction i =>
    rw [Database.on_begin_transaction]
    exact ⟨hs, .refl⟩
  | connection i =>
    cases hc : w.holds? i with
    | none =>
      rw [Database.on_begin_connection_none u s hc]
      exact ⟨hs, .refl⟩
    | some c =>
      obtain ⟨marked, hb⟩ := World.exists_of_holds? hc
      rw [Database.on_begin_connection u s hb rfl]
      cases u.replies.begin w.calls c s with
      | error e => exact ⟨hs, steps_use h hc rfl rfl⟩
      | ok a => exact ⟨hs, .locked (h.mem_handles hc) (steps_begun hc s)⟩
  | pool =>
    rcases hacquire : (Database.acquire u.driver).on w with ⟨a, opened⟩
    cases a with
    | error e =>
      rw [Database.on_begin_pool_error u s hacquire]
      exact ⟨hs, steps_acquire_error hacquire⟩
    | ok c =>
      let i := opened.shared.bindings.length
      let bound := opened.bind ⟨some c, false⟩
      have hhold : Step u (calm w hs) (calm bound (i ::ₘ hs)) :=
        .hold (s := calm w hs) ((Action.on_bind_ok hacquire).trans (Binding.on_new opened c))
      have hc : bound.holds? i = some c := World.holds?_of_binding? World.binding?_bind_length
      have hmem : i ∈ i ::ₘ hs := Multiset.mem_cons_self ..
      rw [Database.on_begin_pool u s hacquire]
      cases u.replies.begin opened.calls c s with
      | error e =>
        have hrefused : Step u (Scene.locked bound (i ::ₘ hs) i)
            (Scene.locked (bound.say [.begin c s (.error e)]) (i ::ₘ hs) i) :=
          .lockedUse hc rfl rfl
        have hsent := (Steps.locked hmem (.single hrefused)).head hhold
        have hbound : (bound.say [.begin c s (.error e)]).binding? i = some ⟨some c, false⟩ :=
          World.binding?_bind_length
        have habandon := steps_abandon (u := u) (Steps.sound hsent h) i
        rw [Database.on_abandon u .pool hbound, World.put_say, World.say_say, ← World.put_say,
          World.put_bind] at habandon
        obtain ⟨hs', hsteps⟩ := habandon
        exact ⟨hs', hsent.trans hsteps⟩
      | ok a =>
        have hbegun := Steps.locked hmem (steps_begun (u := u) hc s)
        rw [← World.put_say, World.put_bind] at hbegun
        exact ⟨_, hbegun.head hhold⟩

theorem steps_setEnded (ended : List Bool) :
    Steps u (calm w hs) (calm { w with shared := { w.shared with ended := ended } } hs) :=
  steps_aside rfl (List.append_nil _).symm (List.forall_mem_nil _)

theorem steps_start (h : (calm w hs).Sound) (scope : Scope) (s : TransactionSettings) :
    ∃ hs', Steps u (calm w hs) (calm (w.after u (.start scope s)) hs') := by
  obtain ⟨hs', hsteps⟩ := steps_begin (u := u) h scope s
  rcases hbegun : ((u.handle scope).begin u.driver s).on w with ⟨r, begun⟩
  rw [show w.after u (.begin scope s) = begun from congrArg Prod.snd hbegun] at hsteps
  show ∃ hs', Steps u _ (calm (((u.handle scope).startTransaction s).on w).2 hs')
  rw [Database.startTransaction, Action.on_bind_ok (Database.on_requireDriver u w _)]
  cases r with
  | error e =>
    rw [Action.on_bind_error hbegun]
    exact ⟨hs', hsteps⟩
  | ok p =>
    rw [Action.on_bind_ok hbegun]
    exact ⟨hs', hsteps.trans (steps_setEnded _)⟩

theorem steps_finish (h : (calm w hs).Sound) (p : Pinned) (outcome : Except Error Unit) :
    Steps u (calm w hs) (calm (w.after u (.finish p outcome)) hs) := by
  show Steps u _ (calm (((u.handle .pool).finish u.driver p outcome).on w).2 hs)
  cases hc : w.holds? p.binding with
  | none => rw [Database.on_finish_none u .pool hc]
  | some c =>
    obtain ⟨marked, hb⟩ := World.exists_of_holds? hc
    obtain ⟨ending, r, hsettles, hon⟩ := Database.on_finish u .pool hb rfl outcome
    rw [hon]
    refine .locked (h.mem_handles hc) ?_
    have hleft : Steps u (Scene.locked (w.say ending) hs p.binding) _ := steps_left hc
    cases hsettles with
    | committed a => exact hleft.head (.lockedUse hc rfl rfl)
    | undone e back => exact hleft.head (.lockedUse hc rfl rfl)
    | uncommitted a e back =>
      have hback : Step u (Scene.locked (w.say [.commit c (.error e)]) hs p.binding) _ :=
        .lockedUse (x := .rollback c back) hc rfl rfl
      rw [World.say_say] at hback
      exact (hleft.head hback).head (.lockedUse hc rfl rfl)

theorem steps_finishByHand (h : (calm w hs).Sound) (t : Controlled) (commit : Bool) :
    Steps u (calm w hs) (calm ((t.finish (u.handle .pool) commit).on w).2 hs) := by
  cases hended : t.endedIn w with
  | true => rw [Controlled.on_finish_ended u .pool hended]
  | false =>
    have hset : Steps u (calm w hs) (calm (w.setEnded t.number) hs) := steps_setEnded _
    cases hc : w.holds? t.pinned.binding with
    | none =>
      rw [Controlled.on_finish_none u .pool hended hc]
      exact hset
    | some c =>
      obtain ⟨marked, hb⟩ := World.exists_of_holds? hc
      have hc' : (w.setEnded t.number).holds? t.pinned.binding = some c := hc
      rw [Controlled.on_finish u .pool hended hb rfl]
      have hleft : ∀ x : Call, x.connection? = some c → x.isPlain = true →
          Steps u (calm (w.setEnded t.number) hs)
            (calm (((w.setEnded t.number).say [x]).left t.pinned c) hs) := fun x hx hplain =>
        .locked (h.mem_handles hc)
          ((steps_left (w := (w.setEnded t.number).say [x]) hc').head (.lockedUse hc' hx hplain))
      cases commit with
      | true => exact hset.trans (hleft _ rfl rfl)
      | false => exact hset.trans (hleft _ rfl rfl)

theorem steps_onConnection (h : (calm w hs).Sound) (t : Controlled)
    {f : Driver Taped → Connection → Executor Taped → Taped (Except Error Unit)}
    (hf : ∀ c, ∃ x : Call, ((Action.call (f u.driver c ((u.handle .pool).executor u.driver c))).on
      w).2 = w.say [x] ∧ x.connection? = some c ∧ x.isPlain = true) :
    Steps u (calm w hs) (calm ((t.onConnection (u.handle .pool) f).on w).2 hs) := by
  cases hc : w.holds? t.pinned.binding with
  | none => rw [Controlled.on_onConnection_none u .pool hc]
  | some c =>
    obtain ⟨x, hx, hconnection, hplain⟩ := hf c
    rw [Controlled.on_onConnection u .pool hc, hx]
    exact steps_use h hc hconnection hplain

theorem steps_letGo (h : (calm w hs).Sound) (i : Nat) :
    Steps u (calm w hs) (calm (w.after u (.letGo i)) hs) := by
  cases hc : w.holds? i with
  | none =>
    have hsame : w.after u (.letGo i) = w := by
      show ((Binding.release u.driver i).on w).2 = w
      rw [Binding.on_release, hc, World.put_emptied hc h.emptied]
      exact World.say_nil
    rw [hsame]
  | some c => exact .locked (h.mem_handles hc) (.single .lockedLetGo)

theorem steps_hold (w : World) (hs : Multiset Nat) :
    ∃ hs', Steps u (calm w hs) (calm (w.after u .hold) hs') := by
  rcases hacquire : (Database.acquire u.driver).on w with ⟨a, opened⟩
  cases a with
  | error e =>
    rw [Database.after_hold_error u hacquire]
    exact ⟨hs, steps_acquire_error hacquire⟩
  | ok c =>
    rw [Database.after_hold u hacquire]
    exact ⟨_, .single (.hold (s := calm w hs)
      ((Action.on_bind_ok hacquire).trans (Binding.on_new opened c)))⟩

theorem steps_destroy (w : World) (hs : Multiset Nat) :
    Steps u (calm w hs) (calm (w.after u .destroy) hs) := by
  have hdestroy : (u.handle .pool).destroy.on w = ((do
      if (← get).initialized then Action.call u.driver.destroy) : Action Taped Unit).on w := rfl
  show Steps u _ (calm ((u.handle .pool).destroy.on w).2 hs)
  rw [hdestroy, Action.on_bind_ok (Action.on_get w)]
  cases w.shared.initialized with
  | false => exact .refl
  | true =>
    exact steps_aside (v := w.say [.destroy (u.replies.destroy w.calls)]) rfl rfl
      (List.forall_mem_singleton.mpr ⟨rfl, rfl⟩)

/-- What an operation does is done in single steps. -/
theorem exists_steps_after (h : (calm w hs).Sound) (op : Operation) :
    ∃ hs', Steps u (calm w hs) (calm (w.after u op) hs') := by
  cases op with
  | run scope n => exact ⟨hs, steps_run h scope n⟩
  | stream scope n chunkSize limit => exact ⟨hs, steps_stream h scope n chunkSize limit⟩
  | begin scope s => exact steps_begin h scope s
  | finish p outcome => exact ⟨hs, steps_finish h p outcome⟩
  | start scope s => exact steps_start h scope s
  | commit t => exact ⟨hs, steps_finishByHand h t true⟩
  | rollback t => exact ⟨hs, steps_finishByHand h t false⟩
  | savepoint t name =>
    exact ⟨hs, steps_onConnection h t (f := fun d c run => d.savepoint c run name) fun c =>
      ⟨.savepoint c name (u.replies.savepoint w.calls c name), rfl, rfl, rfl⟩⟩
  | rollbackTo t name =>
    exact ⟨hs, steps_onConnection h t (f := fun d c run => d.rollbackTo c run name) fun c =>
      ⟨.rollbackTo c name (u.replies.rollbackTo w.calls c name), rfl, rfl, rfl⟩⟩
  | releaseSavepoint t name =>
    exact ⟨hs, steps_onConnection h t (f := fun d c run => d.releaseSavepoint c run name) fun c =>
      ⟨.releaseSavepoint c name (u.replies.releaseSavepoint w.calls c name), rfl, rfl, rfl⟩⟩
  | drop t =>
    show ∃ hs', Steps u _ (calm ((t.drop (u.handle .pool)).on w).2 hs')
    rw [Controlled.on_drop]
    split
    · exact steps_abandon h _
    · exact ⟨hs, .refl⟩
  | hold => exact steps_hold w hs
  | letGo i => exact ⟨hs, steps_letGo h i⟩
  | abandon i => exact steps_abandon h i
  | destroy => exact ⟨hs, steps_destroy w hs⟩

theorem exists_steps_run (h : (calm w hs).Sound) (ops : List Operation) :
    ∃ hs', Steps u (calm w hs) (calm (w.run u ops) hs') := by
  induction ops generalizing w hs with
  | nil => exact ⟨hs, .refl⟩
  | cons op ops ih =>
    obtain ⟨hs', hop⟩ := exists_steps_after (u := u) h op
    obtain ⟨hs'', hops⟩ := ih (Steps.sound hop h)
    exact ⟨hs'', hop.trans hops⟩

/-- Somebody has the connection: who borrows it, the handles of a binding it is in, or a task that
undoes a transaction on it. -/
def Holds (s : Scene) (c : Connection) : Prop :=
  .pooled c ∈ s.taken ∨ (∃ i, s.world.holds? i = some c ∧ s.IsReferenced i) ∨
    ∃ undone, ⟨c, undone⟩ ∈ s.undoing

theorem Sound.mem_held_iff {s : Scene} (h : s.Sound) : c ∈ s.held ↔ s.Holds c := by
  simp only [held, Multiset.mem_add, Multiset.mem_filterMap, Multiset.mem_map, Multiset.mem_coe,
    World.mem_bound]
  constructor
  · rintro ((⟨l, hl, hc⟩ | ⟨⟨d, undone⟩, hd, rfl⟩) | ⟨i, hi⟩)
    · cases l with
      | pooled d => exact .inl (Option.some.inj hc ▸ hl)
      | pinned i => cases hc
    · exact .inr (.inr ⟨undone, hd⟩)
    · exact .inr (.inl ⟨i, hi, h.kept i c hi⟩)
  · rintro (hl | ⟨i, hi, -⟩ | ⟨undone, hd⟩)
    · exact .inl (.inl ⟨_, hl, rfl⟩)
    · exact .inr ⟨i, hi⟩
    · exact .inl (.inr ⟨_, hd, rfl⟩)

theorem not_holds_calm (w : World) (c : Connection) : ¬ (calm w 0).Holds c := by
  rintro (hl | ⟨i, -, hi | hl⟩ | ⟨undone, hd⟩)
  · exact Multiset.notMem_zero _ hl
  · exact Multiset.notMem_zero _ hi
  · exact Multiset.notMem_zero _ hl
  · exact Multiset.notMem_zero _ hd

/-- Every program is a run of steps, at whose end no lease, stream or task is left.  After any run
of steps, whatever fails and whoever goes: what was given back is not used any more, and not given
back again; streams have a connection that was not given back; and of every connection that was
given out, either somebody has it, or it was given back once. -/
theorem released_once (u : Client) :
    (∀ {α : Type} (p : Program α), ∃ hs, Reachable u (calm ((p.perform u).on .new).2 hs)) ∧
      ∀ s, Reachable u s →
        (∀ before c after, s.world.calls = before ++ .release c :: after →
          ∀ x ∈ after, x.connection? ≠ some c) ∧
        (∀ l x, (l, x) ∈ s.streams →
          ∃ c, s.world.lent? l = some c ∧ .release c ∉ s.world.calls) ∧
        ∀ c, .acquire (.ok c) ∈ s.world.calls →
          s.Holds c ∧ .release c ∉ s.world.calls ∨
            ¬ s.Holds c ∧ (released s.world.calls).count c = 1 := by
  refine ⟨fun p => ?_, fun s hs => ⟨fun before c after hcalls x hx => ?_, fun l x hx => ?_,
    fun c hc => ?_⟩⟩
  · obtain ⟨ops, hops⟩ := p.exists_run u .new
    rw [hops]
    exact exists_steps_run sound_calm ops
  · have hspent := hs.sound.accounts.spent
    rw [hcalls] at hspent
    exact List.rel_of_pairwise_cons (List.pairwise_append.mp hspent).2.1 hx c rfl
  · obtain ⟨c, hc⟩ := hs.sound.supplied hx
    have htaken : l ∈ s.taken :=
      Multiset.mem_add.mpr (.inr (Multiset.mem_map_of_mem Prod.fst hx))
    refine ⟨c, hc, fun hrelease => ?_⟩
    exact hs.sound.accounts.not_mem_released (mem_held htaken hc) (mem_released.mpr hrelease)
  · have haccounts := hs.sound.accounts
    rw [← hs.sound.mem_held_iff, ← mem_released]
    by_cases hheld : c ∈ s.held
    · exact .inl ⟨hheld, haccounts.not_mem_released hheld⟩
    · have hmem : c ∈ s.held + (↑(released s.world.calls) : Multiset Connection) := by
        rw [haccounts.balanced]
        exact mem_granted.mpr hc
      have hreleased := Multiset.mem_coe.mp ((Multiset.mem_add.mp hmem).resolve_left hheld)
      exact .inr ⟨hheld, List.count_eq_one_of_mem
        (Multiset.coe_nodup.mp (Multiset.nodup_add.mp haccounts.nodup).2.1) hreleased⟩

/-- A transaction begun by hand whose handle goes is undone, and its connection is given back. -/
theorem released_once_granting :
    ∃ s, Reachable .granting s ∧ .acquire (.ok ⟨0⟩) ∈ s.world.calls ∧ ¬ s.Holds ⟨0⟩ ∧
      (released s.world.calls).count ⟨0⟩ = 1 := by
  let opened : World := ⟨{ initialized := true }, [.init (.ok ()), .acquire (.ok ⟨0⟩)]⟩
  let bound := opened.bind ⟨some ⟨0⟩, false⟩
  let begun := (bound.say [.begin ⟨0⟩ {} (.ok ())]).put 0 ⟨some ⟨0⟩, true⟩
  let gone := (((Client.granting.handle .pool).abandon Client.granting.driver 0).on begun).2
  have hreachable : Reachable .granting (calm gone 0) := by
    have hhold : Step .granting new (calm bound {0}) := .hold (s := new) rfl
    have hbegun : Steps .granting (calm bound {0}) (calm begun {0}) :=
      .locked (Multiset.mem_singleton_self _) (steps_begun rfl {})
    have hdrop : Step .granting (calm begun {0}) ((calm begun 0).settle 0) :=
      .drop (s := calm begun 0)
    exact ((hbegun.head hhold).tail hdrop).trans (steps_settle (Multiset.notMem_zero _) rfl)
  have hacquire : .acquire (.ok ⟨0⟩) ∈ (calm gone 0).world.calls := .tail _ (.head _)
  have hgone := not_holds_calm gone ⟨0⟩
  refine ⟨_, hreachable, hacquire, hgone, ?_⟩
  exact (((released_once _).2 _ hreachable).2.2 _ hacquire).elim (fun h => absurd h.1 hgone)
    And.right

end Scene

end SqlTree
