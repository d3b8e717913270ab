import SqlTree.Proofs.Database.Returning

/-!
# Transactions inside transactions

A transaction's own handle refuses to begin another one, and a handle of the pool begins on a
connection nobody else has.  A handle of a connection block looks at neither: transactions nest
exactly where such a handle begins one on its connection while another is open there, in any run
(`World.nests_run_iff`).
-/

namespace SqlTree

open Call

namespace Call

/-- Whether a call ends the transaction on a connection: a commit or a rollback that succeeds. -/
def ends (c : Connection) : Call → Bool
  | .commit c' (.ok _) => c' = c
  | .rollback c' (.ok _) => c' = c
  | _ => false

def isBegin : Call → Bool
  | .begin .. => true
  | _ => false

end Call

/-- A transaction was begun on the connection and neither committed nor rolled back since. -/
def HasTransaction (calls : List Call) (c : Connection) : Prop :=
  ∃ before s between, calls = before ++ .begin c s (.ok ()) :: between ∧
    ∀ x ∈ between, x.ends c = false

/-- The driver is asked to begin a transaction on a connection that has one already. -/
def Nests (calls : List Call) (c : Connection) : Prop :=
  ∃ before s a after, calls = before ++ .begin c s a :: after ∧ HasTransaction before c

/-- After the calls before it, the call begins a transaction inside another. -/
def Call.IsNested (c : Connection) (before : List Call) (x : Call) : Prop :=
  (∃ s a, x = .begin c s a) ∧ HasTransaction before c

theorem nests_iff {calls : List Call} {c : Connection} :
    Nests calls c ↔ Occurs (IsNested c) [] calls := by
  constructor
  · rintro ⟨before, s, a, after, rfl, h⟩
    exact ⟨before, _, after, rfl, ⟨s, a, rfl⟩, h⟩
  · rintro ⟨before, _, after, rfl, ⟨s, a, rfl⟩, h⟩
    exact ⟨before, s, a, after, rfl, h⟩

theorem Opens.isBegin_eq_false {initialized : Bool} {calls : List Call}
    {a : Except Error Connection} (h : Opens initialized calls a) :
    ∀ y ∈ calls, y.isBegin = false := by
  cases h <;> simp [isBegin]

namespace World

/-- From the world `w` to `v` nobody asks for a transaction. -/
def Unbegun (w v : World) : Prop :=
  ∃ calls, v.calls = w.calls ++ calls ∧ ∀ y ∈ calls, y.isBegin = false

variable {w v v' : World}

namespace Unbegun

theorem refl (w : World) : w.Unbegun w := ⟨[], (List.append_nil _).symm, List.forall_mem_nil _⟩

theorem say {l : List Call} (h : ∀ y ∈ l, y.isBegin = false) : w.Unbegun (w.say l) :=
  ⟨l, rfl, h⟩

theorem trans (h : w.Unbegun v) (h' : v.Unbegun v') : w.Unbegun v' := by
  obtain ⟨xs, hxs, hx⟩ := h
  obtain ⟨ys, hys, hy⟩ := h'
  refine ⟨xs ++ ys, by rw [hys, hxs, List.append_assoc], ?_⟩
  simpa [or_imp, forall_and] using ⟨hx, hy⟩

theorem left (h : w.Unbegun v) (p : Pinned) (c : Connection) : w.Unbegun (v.left p c) := by
  refine h.trans ?_
  rw [World.left]
  split
  · exact say (w := v.put p.binding ⟨none, false⟩) (by simp [isBegin])
  · exact refl v

end Unbegun

variable (u : Client) (w)

theorem unbegun_acquire : w.Unbegun ((Database.acquire u.driver).on w).2 := by
  obtain ⟨calls, a, initialized, hopens, hon, -⟩ := Database.on_acquire u w
  rw [hon]
  exact ⟨calls, rfl, hopens.isBegin_eq_false⟩

theorem unbegun_withConnection {α : Type} (scope : Scope)
    {use : Driver Taped → Connection → Action Taped α}
    (huse : ∀ (c : Connection) (v : World), v.Unbegun ((use u.driver c).on v).2) :
    w.Unbegun (((u.handle scope).withConnection use).on w).2 := by
  have hbound : ∀ i, (u.handle scope).binding? = some i →
      w.Unbegun (((u.handle scope).withConnection use).on w).2 := fun i hs => by
    cases hc : w.holds? i with
    | none =>
      rw [Database.on_withConnection_none u use hs hc]
      exact .refl w
    | some c =>
      rw [Database.on_withConnection u use hs hc]
      exact huse c w
  cases scope with
  | connection i => exact hbound i rfl
  | transaction i => exact hbound i rfl
  | pool =>
    have hopened := w.unbegun_acquire u
    rcases hacquire : (Database.acquire u.driver).on w with ⟨a, opened⟩
    rw [hacquire] at hopened
    cases a with
    | error e =>
      rw [Database.on_withConnection_pool_error u use hacquire]
      exact hopened
    | ok c =>
      rw [Database.on_withConnection_pool u use hacquire]
      exact (hopened.trans (huse c opened)).trans (.say (by simp [isBegin]))

theorem unbegun_run (scope : Scope) (n : Node) : w.Unbegun (w.after u (.run scope n)) := by
  show w.Unbegun (((u.handle scope).run n).on w).2
  cases hn : u.compile n with
  | error e =>
    rw [Database.on_run_unsent u hn]
    exact .refl w
  | ok q =>
    rw [Database.on_run_world u hn]
    refine w.unbegun_withConnection u scope fun c v => ?_
    rw [Database.executor_eq, Action.on_call_answer]
    exact .say (by simp [isBegin])

theorem unbegun_stream (scope : Scope) (n : Node) (chunkSize : Nat) (limit : Option Nat) :
    w.Unbegun (w.after u (.stream scope n chunkSize limit)) := by
  show w.Unbegun (((u.handle scope).stream n chunkSize limit).on w).2
  cases hn : u.compile n with
  | error e =>
    rw [Database.on_stream_unsent u hn]
    exact .refl w
  | ok q =>
    rw [Database.on_stream_world u hn]
    refine w.unbegun_withConnection u scope fun c v => ?_
    exact ⟨_, congrArg (·.2.calls) (Database.on_fetched u c q chunkSize v), by simp [isBegin]⟩

theorem unbegun_finish (p : Pinned) (outcome : Except Error Unit) :
    w.Unbegun (w.after u (.finish p outcome)) := by
  show w.Unbegun (((u.handle .pool).finish u.driver p outcome).on w).2
  cases hc : w.holds? p.binding with
  | none =>
    rw [Database.on_finish_none u .pool hc]
    exact .refl w
  | some c =>
    obtain ⟨marked, hb⟩ := exists_of_holds? hc
    obtain ⟨ending, r, hsettles, hon⟩ := Database.on_finish u .pool hb rfl outcome
    rw [hon]
    exact (Unbegun.say (by cases hsettles <;> simp [isBegin])).left p c

theorem unbegun_finishByHand (t : Controlled) (commit : Bool) :
    w.Unbegun ((t.finish (u.handle .pool) commit).on w).2 := by
  cases hended : t.endedIn w with
  | true =>
    rw [Controlled.on_finish_ended u .pool hended]
    exact .refl w
  | false =>
    cases hc : w.holds? t.pinned.binding with
    | none =>
      rw [Controlled.on_finish_none u .pool hended hc]
      exact .refl w
    | some c =>
      obtain ⟨marked, hb⟩ := exists_of_holds? hc
      rw [Controlled.on_finish u .pool hended hb rfl]
      cases commit <;>
        exact (Unbegun.say (w := w.setEnded t.number) (by simp [isBegin])).left t.pinned c

theorem unbegun_onConnection (t : Controlled)
    {f : Driver Taped → Connection → Executor Taped → Taped (Except Error Unit)}
    (hf : ∀ c, w.Unbegun ((Action.call (f u.driver c ((u.handle .pool).executor u.driver c))).on
      w).2) :
    w.Unbegun ((t.onConnection (u.handle .pool) f).on w).2 := by
  cases hc : w.holds? t.pinned.binding with
  | none =>
    rw [Controlled.on_onConnection_none u .pool hc]
    exact .refl w
  | some c =>
    rw [Controlled.on_onConnection u .pool hc]
    exact hf c

theorem unbegun_release (i : Nat) : w.Unbegun ((Binding.release u.driver i).on w).2 := by
  rw [Binding.on_release]
  exact Unbegun.say (w := w.put i ⟨none, false⟩) (by simp [isBegin])

theorem unbegun_abandon (i : Nat) :
    w.Unbegun (((u.handle .pool).abandon u.driver i).on w).2 := by
  cases hc : w.holds? i with
  | none =>
    rw [Database.on_abandon_none u .pool hc]
    exact .refl w
  | some c =>
    obtain ⟨marked, hb⟩ := exists_of_holds? hc
    cases marked with
    | true =>
      rw [Database.on_abandon_inTransaction u .pool hb]
      exact Unbegun.say (w := w.put i ⟨none, false⟩) (by simp [isBegin])
    | false =>
      rw [Database.on_abandon u .pool hb]
      exact Unbegun.say (w := w.put i ⟨none, false⟩) (by simp [isBegin])

theorem unbegun_destroy : w.Unbegun (w.after u .destroy) := by
  have hdestroy : (u.handle .pool).destroy.on w = ((do
      if (← get).initialized then Action.call u.driver.destroy) : Action Taped Unit).on w := rfl
  show w.Unbegun ((u.handle .pool).destroy.on w).2
  rw [hdestroy, Action.on_bind_ok (Action.on_get w)]
  cases w.shared.initialized with
  | false => exact .refl w
  | true => exact .say (l := [.destroy (u.replies.destroy w.calls)]) (by simp [isBegin])

/-- Only the operations that begin a transaction ask for one. -/
theorem unbegun_after {op : Operation} (hbegin : ∀ scope s, op ≠ .begin scope s)
    (hstart : ∀ scope s, op ≠ .start scope s) : w.Unbegun (w.after u op) := by
  cases op with
  | run scope n => exact w.unbegun_run u scope n
  | stream scope n chunkSize limit => exact w.unbegun_stream u scope n chunkSize limit
  | begin scope s => exact absurd rfl (hbegin scope s)
  | finish p outcome => exact w.unbegun_finish u p outcome
  | start scope s => exact absurd rfl (hstart scope s)
  | commit t => exact w.unbegun_finishByHand u t true
  | rollback t => exact w.unbegun_finishByHand u t false
  | savepoint t name =>
    exact w.unbegun_onConnection u t (f := fun d c run => d.savepoint c run name) fun c =>
      .say (l := [.savepoint c name (u.replies.savepoint w.calls c name)]) (by simp [isBegin])
  | rollbackTo t name =>
    exact w.unbegun_onConnection u t (f := fun d c run => d.rollbackTo c run name) fun c =>
      .say (l := [.rollbackTo c name (u.replies.rollbackTo w.calls c name)])
        (by simp [isBegin])
  | releaseSavepoint t name =>
    exact w.unbegun_onConnection u t (f := fun d c run => d.releaseSavepoint c run name) fun c =>
      .say (l := [.releaseSavepoint c name (u.replies.releaseSavepoint w.calls c name)])
        (by simp [isBegin])
  | drop t =>
    show w.Unbegun ((t.drop (u.handle .pool)).on w).2
    rw [Controlled.on_drop]
    split
    · exact w.unbegun_abandon u _
    · exact .refl w
  | hold =>
    have hopened := w.unbegun_acquire u
    rcases hacquire : (Database.acquire u.driver).on w with ⟨a, opened⟩
    rw [hacquire] at hopened
    cases a with
    | error e => rwa [Database.after_hold_error u hacquire]
    | ok c => rwa [Database.after_hold u hacquire]
  | letGo i => exact w.unbegun_release u i
  | abandon i => exact w.unbegun_abandon u i
  | destroy => exact w.unbegun_destroy u

end World

/-- Transactions were asked for only on connections that were given out. -/
def BegunOnTaken (calls : List Call) : Prop :=
  ∀ c s a, Call.begin c s a ∈ calls → c.id < acquired calls

/-- The calls `ys` go on from `xs`, and `nested` are the connections on which one of those that were
added begins a transaction inside another. -/
structure Begins (xs ys : List Call) (nested : Connection → Prop) : Prop where
  begunOnTaken : BegunOnTaken ys
  nested_iff : ∃ calls, ys = xs ++ calls ∧ ∀ c, Occurs (IsNested c) xs calls ↔ nested c

section Begins

variable {xs ys zs : List Call} {nested nested' : Connection → Prop}

theorem Begins.congr (h : Begins xs ys nested) (hnested : ∀ c, nested c ↔ nested' c) :
    Begins xs ys nested' := by
  obtain ⟨calls, hcalls, hiff⟩ := h.nested_iff
  exact ⟨h.begunOnTaken, calls, hcalls, fun c => (hiff c).trans (hnested c)⟩

theorem Begins.trans (h : Begins xs ys nested) (h' : Begins ys zs nested') :
    Begins xs zs fun c => nested c ∨ nested' c := by
  obtain ⟨ys, rfl, hiff⟩ := h.nested_iff
  obtain ⟨zs, rfl, hiff'⟩ := h'.nested_iff
  refine ⟨h'.begunOnTaken, ys ++ zs, List.append_assoc .., fun c => ?_⟩
  rw [occurs_append, hiff, hiff']

namespace BegunOnTaken

theorem unbegun {w v : World} (h : BegunOnTaken w.calls) (hv : w.Unbegun v) :
    Begins w.calls v.calls fun _ => False := by
  obtain ⟨calls, hcalls, hbegin⟩ := hv
  have hnone : ∀ c s a, Call.begin c s a ∉ calls := fun c s a hmem => nomatch hbegin _ hmem
  refine ⟨fun c s a hmem => ?_, calls, hcalls, fun c => iff_of_false ?_ id⟩
  · rw [hcalls, List.mem_append, or_iff_left (hnone c s a)] at hmem
    have := h c s a hmem
    rw [hcalls, acquired_append]
    omega
  · refine not_occurs_of_forall fun y hy before => ?_
    rintro ⟨⟨s, a, rfl⟩, -⟩
    exact hnone c s a hy

/-- A transaction is asked for on a connection that was given out. -/
theorem begin {c : Connection} (h : BegunOnTaken xs) (hc : c.id < acquired xs)
    (s : TransactionSettings) (a : Except Error Unit) :
    Begins xs (xs ++ [.begin c s a]) fun d => d = c ∧ HasTransaction xs c := by
  refine ⟨fun d s' a' hmem => ?_, _, rfl, fun d => ?_⟩
  · rw [acquired_append]
    obtain hmem | hmem := List.mem_append.mp hmem
    · have := h d s' a' hmem
      omega
    · obtain ⟨rfl, -⟩ := Call.begin.inj (List.mem_singleton.mp hmem)
      omega
  · rw [occurs_singleton]
    constructor
    · rintro ⟨⟨s', a', heq⟩, hopen⟩
      obtain ⟨rfl, -⟩ := Call.begin.inj heq
      exact ⟨rfl, hopen⟩
    · rintro ⟨rfl, hopen⟩
      exact ⟨⟨s, a, rfl⟩, hopen⟩

end BegunOnTaken

end Begins

/-- The operation begins a transaction on a connection that has one: it is asked of the handle of a
connection block. -/
def Operation.Nests (w : World) (c : Connection) : Operation → Prop
  | .begin (.connection i) _ => w.holds? i = some c ∧ HasTransaction w.calls c
  | .start (.connection i) _ => w.holds? i = some c ∧ HasTransaction w.calls c
  | _ => False

namespace World

variable (u : Client) {w : World}

theorem Sound.begins_begin (hw : w.Sound) (h : BegunOnTaken w.calls) (scope : Scope)
    (s : TransactionSettings) :
    Begins w.calls (w.after u (.begin scope s)).calls fun c =>
      (Operation.begin scope s).Nests w c := by
  show Begins w.calls (((u.handle scope).begin u.driver s).on w).2.calls _
  cases scope with
  | transaction i =>
    rw [Database.on_begin_transaction]
    exact h.unbegun (.refl w)
  | connection i =>
    cases hc : w.holds? i with
    | none =>
      rw [Database.on_begin_connection_none u s hc]
      exact (h.unbegun (.refl w)).congr fun c => by simp [Operation.Nests, hc]
    | some c =>
      obtain ⟨marked, hb⟩ := exists_of_holds? hc
      have hbegin : ∀ a, Begins w.calls (w.calls ++ [.begin c s a]) fun d =>
          (Operation.begin (.connection i) s).Nests w d := fun a =>
        (h.begin (hw.taken hb) s a).congr fun d => by
          simp only [Operation.Nests, hc, Option.some.injEq]
          constructor
          · rintro ⟨rfl, hopen⟩
            exact ⟨rfl, hopen⟩
          · rintro ⟨rfl, hopen⟩
            exact ⟨rfl, hopen⟩
      rw [Database.on_begin_connection u s hb rfl]
      cases u.replies.begin w.calls c s with
      | error e => exact hbegin (.error e)
      | ok a => exact hbegin (.ok ())
  | pool =>
    obtain ⟨opening, a, initialized, hopens, hacquire, hid⟩ := Database.on_acquire u w
    have hopened : Begins w.calls (w.calls ++ opening) fun _ => False :=
      h.unbegun (v := w.say opening) ⟨opening, rfl, hopens.isBegin_eq_false⟩
    cases a with
    | error e =>
      rw [Database.on_begin_pool_error u s hacquire]
      exact hopened
    | ok c =>
      -- connections are numbered as they are given out, so nothing was begun on this one
      have hid : c.id = acquired w.calls := congrArg Connection.id (hid c rfl)
      have hfree : ¬ HasTransaction (w.calls ++ opening) c := by
        rintro ⟨before, s', between, heq, -⟩
        have hmem : Call.begin c s' (.ok ()) ∈ w.calls ++ opening := by simp [heq]
        obtain hmem | hmem := List.mem_append.mp hmem
        · have := h c s' (.ok ()) hmem
          omega
        · exact nomatch hopens.isBegin_eq_false _ hmem
      have hbegin : ∀ a, Begins w.calls (w.calls ++ opening ++ [.begin c s a]) fun _ => False := by
        intro a
        have htaken : c.id < acquired (w.calls ++ opening) := by
          rw [acquired_append, hopens.acquired, hid]
          omega
        exact (hopened.trans (hopened.begunOnTaken.begin htaken s a)).congr fun d => by
          simp [hfree]
      rw [Database.on_begin_pool u s hacquire]
      split
      · next e he =>
        have hrelease := (hbegin (.error e)).begunOnTaken.unbegun
          (w := ⟨w.shared, w.calls ++ opening ++ [.begin c s (.error e)]⟩)
          (.say (l := [.release c]) (by simp [isBegin]))
        show Begins w.calls (w.calls ++ opening ++ [.begin c s (.error e), .release c]) _
        rw [List.append_cons]
        exact ((hbegin (.error e)).trans hrelease).congr fun d => or_self_iff
      · exact hbegin (.ok ())

theorem Sound.begins_start (hw : w.Sound) (h : BegunOnTaken w.calls) (scope : Scope)
    (s : TransactionSettings) :
    Begins w.calls (w.after u (.start scope s)).calls fun c =>
      (Operation.start scope s).Nests w c := by
  have hbegin := hw.begins_begin u h scope s
  have hcalls : (w.after u (.start scope s)).calls = (w.after u (.begin scope s)).calls := by
    show (((u.handle scope).startTransaction s).on w).2.calls =
      (((u.handle scope).begin u.driver s).on w).2.calls
    rw [Database.startTransaction, Action.on_bind_ok (Database.on_requireDriver u w _),
      Action.on_bind]
    rcases ((u.handle scope).begin u.driver s).on w with ⟨r, begun⟩
    cases r <;> rfl
  rw [hcalls]
  exact hbegin.congr fun c => by cases scope <;> rfl

theorem Sound.begins_after (hw : w.Sound) (h : BegunOnTaken w.calls) (op : Operation) :
    Begins w.calls (w.after u op).calls fun c => op.Nests w c := by
  by_cases hbegin : ∃ scope s, op = .begin scope s
  · obtain ⟨scope, s, rfl⟩ := hbegin
    exact hw.begins_begin u h scope s
  · by_cases hstart : ∃ scope s, op = .start scope s
    · obtain ⟨scope, s, rfl⟩ := hstart
      exact hw.begins_start u h scope s
    · have hno : ∀ scope s, op ≠ .begin scope s := fun scope s heq => hbegin ⟨scope, s, heq⟩
      have hno' : ∀ scope s, op ≠ .start scope s := fun scope s heq => hstart ⟨scope, s, heq⟩
      refine (h.unbegun (w.unbegun_after u hno hno')).congr fun c => ?_
      cases op with
      | begin scope s => exact absurd rfl (hno scope s)
      | start scope s => exact absurd rfl (hno' scope s)
      | _ => exact Iff.rfl

theorem Sound.begins_run (hw : w.Sound) (h : BegunOnTaken w.calls) (ops : List Operation) :
    Begins w.calls (w.run u ops).calls fun c => ∃ before op later, ops = before ++ op :: later ∧
      op.Nests (w.run u before) c := by
  induction ops generalizing w with
  | nil => exact (h.unbegun (.refl w)).congr fun c => by simp
  | cons op ops ih =>
    have hop := hw.begins_after u h op
    refine (hop.trans (ih (hw.after u op).sound hop.begunOnTaken)).congr fun c => ?_
    let nests (before : List Operation) (op : Operation) : Prop := op.Nests (w.run u before) c
    exact (occurs_cons : Occurs nests [] (op :: ops) ↔ _).symm

/-- Every program is a run of operations; in whatever order operations are run, and whatever the
driver answers, transactions nest exactly by those that begin one through the handle of a connection
block whose connection has one; and through the handle of a transaction none is ever begun. -/
theorem nests_run_iff :
    (∀ {α : Type} (p : Program α), ∃ ops, ((p.perform u).on new).2 = new.run u ops) ∧
      (∀ (ops : List Operation) (c : Connection), Nests (new.run u ops).calls c ↔
        ∃ before op later, ops = before ++ op :: later ∧ op.Nests (new.run u before) c) ∧
      ∀ (w : World) (i : Nat) (s : TransactionSettings),
        ((u.handle (.transaction i)).startTransaction s).on w =
          (.error (.transaction .nested), w) ∧
        ∀ {α : Type} (body : Database Taped → Action Taped α),
          ((u.handle (.transaction i)).transaction s body).on w =
            (.error (.transaction .nested), w) := by
  refine ⟨fun p => p.exists_run u new, fun ops c => ?_, fun w i s => ⟨?_, fun body => ?_⟩⟩
  · obtain ⟨calls, hcalls, hnested⟩ :=
      (sound_new.begins_run u (fun c s a h => by simp [new] at h) ops).nested_iff
    rw [nests_iff, hcalls]
    exact hnested c
  · rw [Database.startTransaction, Action.on_bind_ok (Database.on_requireDriver u w _),
      Action.on_bind_error (Database.on_begin_transaction u s w)]
  · exact Database.on_transaction_error u _ s body (Database.on_begin_transaction u s w)

end World

/-- Two transactions begun by hand on the handle of a connection block are one inside the other. -/
theorem Client.nests_granting :
    let block := (granting.handle .pool).connection fun db => do
      let _ ← db.startTransaction {}
      db.startTransaction {}
    (∃ started, (block.on .new).1 = .ok started) ∧ Nests (block.on .new).2.calls ⟨0⟩ := by
  refine ⟨⟨_, rfl⟩, [.init (.ok ()), .acquire (.ok ⟨0⟩), .begin ⟨0⟩ {} (.ok ())], {}, .ok (),
    [.release ⟨0⟩], rfl, ?_⟩
  exact ⟨[.init (.ok ()), .acquire (.ok ⟨0⟩)], {}, [], rfl, List.forall_mem_nil _⟩

end SqlTree
