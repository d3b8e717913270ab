import SqlTree.Database.Stream
import SqlTree.Proofs.Database.Tape

/-!
# What handles ask of a driver

One lemma for each part of the handles says what it puts on the tape, what it answers and what it
leaves in its binding: getting a connection (`Database.on_acquire`), using one
(`Database.on_withConnection_pool`), beginning a transaction (`Database.on_begin_pool`) and ending
one, by its body (`Database.on_finish`) or by hand (`Controlled.on_finish`).
-/

namespace SqlTree

/-- Getting a connection of the pool, before which the driver is initialized once. -/
inductive Opens : Bool → List Call → Except Error Connection → Prop
  | ready (a : Except Error Connection) : Opens true [.acquire a] a
  | fresh (a : Except Error Connection) : Opens false [.init (.ok ()), .acquire a] a
  | uninitialized (e : Error) : Opens false [.init (.error e)] (.error e)

/-- The error of a body that was undone, with that of undoing it. -/
def Error.undone (e : Error) : Except Error Unit → Error
  | .ok _ => e
  | .error second => .rollback e second

/-- Ending a transaction on a connection: a commit that is undone if it fails, or undoing. -/
inductive Settles (c : Connection) {α : Type} :
    Except Error α → List Call → Except Error α → Prop
  | committed (a : α) : Settles c (.ok a) [.commit c (.ok ())] (.ok a)
  | uncommitted (a : α) (e : Error) (back : Except Error Unit) :
    Settles c (.ok a) [.commit c (.error e), .rollback c back] (.error (e.undone back))
  | undone (e : Error) (back : Except Error Unit) :
    Settles c (.error e) [.rollback c back] (.error (e.undone back))

namespace Database

variable (u : Client) (w : World)

theorem on_requireDriver (scope : Scope) :
    (u.handle scope).requireDriver.on w = (.ok u.driver, w) := rfl

theorem on_call_acquire :
    ∃ a, (Action.call u.driver.acquire).on w = (a, w.say [.acquire a]) ∧
      ∀ c, a = .ok c → c = ⟨Call.acquired w.calls⟩ := by
  refine ⟨(u.replies.acquire w.calls).map fun _ => ⟨Call.acquired w.calls⟩, rfl, fun c hc => ?_⟩
  cases h : u.replies.acquire w.calls with
  | error e =>
    rw [h] at hc
    cases hc
  | ok a =>
    rw [h] at hc
    exact (Except.ok.inj hc).symm

/-- The driver is initialized before the first connection, and connections are numbered. -/
theorem on_acquire :
    ∃ calls a initialized, Opens w.shared.initialized calls a ∧
      (acquire u.driver).on w = (a, (w.say calls).setInitialized initialized) ∧
        ∀ c, a = .ok c → c = ⟨Call.acquired w.calls⟩ := by
  cases hw : w.shared.initialized with
  | true =>
    have hprepare : (prepare u.driver).on w = (.ok ⟨⟩, w) := by
      rw [prepare, Action.on_bind_ok (Action.on_get w), hw]
      rfl
    obtain ⟨a, ha, hc⟩ := on_call_acquire u w
    refine ⟨_, a, true, .ready a, ?_, hc⟩
    rw [acquire, Action.on_bind_ok hprepare, ha, ← hw]
    rfl
  | false =>
    have hprepare : (prepare u.driver).on w = (Action.call u.driver.init >>= fun _ =>
        (modify fun s => { s with initialized := true } : Action Taped PUnit)).on w := by
      rw [prepare, Action.on_bind_ok (Action.on_get w), hw]
      rfl
    cases hinit : u.replies.init w.calls with
    | error e =>
      have hcall : (Action.call u.driver.init).on w = (.error e, w.say [.init (.error e)]) := by
        rw [← hinit]
        rfl
      rw [Action.on_bind_error hcall] at hprepare
      refine ⟨_, .error e, false, .uninitialized e, ?_, nofun⟩
      rw [acquire, Action.on_bind_error hprepare, ← hw]
      rfl
    | ok a =>
      have hcall : (Action.call u.driver.init).on w = (.ok a, w.say [.init (.ok a)]) := by
        rw [← hinit]
        rfl
      rw [Action.on_bind_ok hcall, Action.on_modify] at hprepare
      obtain ⟨a, ha, hc⟩ := on_call_acquire u ((w.say [.init (.ok ())]).setInitialized true)
      refine ⟨_, a, true, .fresh a, ?_, fun c h => ?_⟩
      · rw [acquire, Action.on_bind_ok hprepare]
        exact ha.trans (by simp [World.say, World.setInitialized])
      · rw [hc c h]
        simp [World.say, World.setInitialized, Call.acquired_append, Call.acquired]

section Abandon

variable {w} {i : Nat} {c : Connection} (scope : Scope)

/-- A connection without an open transaction is given back as it is. -/
theorem on_abandon (h : w.binding? i = some ⟨some c, false⟩) :
    ((u.handle scope).abandon u.driver i).on w =
      (.ok ⟨⟩, (w.put i ⟨none, false⟩).say [.release c]) := by
  rw [abandon, Action.on_bind_ok (Binding.on_get? w i), h]
  show (Binding.release u.driver i).on w = _
  rw [Binding.on_release, World.holds?_of_binding? h]
  rfl

/-- A transaction that was left open is undone first. -/
theorem on_abandon_inTransaction (h : w.binding? i = some ⟨some c, true⟩) :
    ((u.handle scope).abandon u.driver i).on w =
      (.ok ⟨⟩, (w.put i ⟨none, false⟩).say
        [.rollback c (u.replies.rollback w.calls c), .release c]) := by
  let undone := w.say [.rollback c (u.replies.rollback w.calls c)]
  have htell : (Action.tell (u.driver.rollback c ((u.handle scope).executor u.driver c))).on w =
      (.ok (u.replies.rollback w.calls c), undone) := rfl
  rw [abandon, Action.on_bind_ok (Binding.on_get? w i), h]
  show Action.on (Action.tell _ >>= fun _ => Binding.release u.driver i) w = _
  rw [Action.on_bind_ok htell, Binding.on_release,
    World.holds?_of_binding? (w := undone) (i := i) h]
  simp [undone]

theorem on_abandon_none (h : w.holds? i = none) :
    ((u.handle scope).abandon u.driver i).on w = (.ok ⟨⟩, w) := by
  rw [abandon, Action.on_bind_ok (Binding.on_get? w i)]
  rw [World.holds?] at h
  cases hb : w.binding? i with
  | none => rfl
  | some b =>
    obtain ⟨connection, inTransaction⟩ := b
    rw [hb] at h
    obtain rfl : connection = none := h
    rfl

end Abandon

section Begin

variable {w} (s : TransactionSettings) {i : Nat} {c : Connection}

theorem on_begin_bound {b : Binding} (scope : Scope) (h : w.binding? i = some b)
    (hc : b.connection = some c) :
    Action.on (do
        let c ← Binding.current i
        Action.call (u.driver.begin c ((u.handle scope).executor u.driver c) s)
        Binding.update i fun binding => { binding with inTransaction := true }) w =
      match u.replies.begin w.calls c s with
      | .error e => (.error e, w.say [.begin c s (.error e)])
      | .ok _ => (.ok ⟨⟩, (w.say [.begin c s (.ok ())]).put i ⟨some c, true⟩) := by
  have hcurrent := Binding.on_current ((World.holds?_of_binding? h).trans hc)
  have hcall : (Action.call (u.driver.begin c ((u.handle scope).executor u.driver c) s)).on w =
      (u.replies.begin w.calls c s, w.say [.begin c s (u.replies.begin w.calls c s)]) := rfl
  rw [Action.on_bind_ok hcurrent]
  cases hbegin : u.replies.begin w.calls c s with
  | error e =>
    rw [hbegin] at hcall
    exact Action.on_bind_error hcall
  | ok a =>
    rw [hbegin] at hcall
    rw [Action.on_bind_ok hcall, Binding.on_update (w := w.say [.begin c s (.ok ())]) h, hc]

/-- Beginning a transaction on a bound connection. -/
theorem on_begin_connection {b : Binding} (h : w.binding? i = some b)
    (hc : b.connection = some c) :
    ((u.handle (.connection i)).begin u.driver s).on w =
      match u.replies.begin w.calls c s with
      | .error e => (.error e, w.say [.begin c s (.error e)])
      | .ok _ => (.ok ⟨i, false⟩, (w.say [.begin c s (.ok ())]).put i ⟨some c, true⟩) := by
  have hpin : ((u.handle (.connection i)).pin u.driver).on w = (.ok ⟨i, false⟩, w) := rfl
  rw [begin, Action.on_bind_ok hpin, Action.on_bind_ok (Action.on_attempt _ w),
    on_begin_bound u s _ h hc]
  cases u.replies.begin w.calls c s <;> rfl

theorem on_begin_connection_none (h : w.holds? i = none) :
    ((u.handle (.connection i)).begin u.driver s).on w =
      (.error (.transaction .finished), w) := by
  have hpin : ((u.handle (.connection i)).pin u.driver).on w = (.ok ⟨i, false⟩, w) := rfl
  rw [begin, Action.on_bind_ok hpin, Action.on_bind_ok (Action.on_attempt _ w),
    Action.on_bind_error (Binding.on_current_none h)]
  rfl

theorem on_begin_transaction (w : World) :
    ((u.handle (.transaction i)).begin u.driver s).on w = (.error (.transaction .nested), w) := rfl

/-- Beginning a transaction on the pool, once there is a connection. -/
theorem on_begin_pool {opened : World} (h : (acquire u.driver).on w = (.ok c, opened)) :
    ((u.handle .pool).begin u.driver s).on w =
      match u.replies.begin opened.calls c s with
      | .error e =>
        (.error e, (opened.say [.begin c s (.error e), .release c]).bind ⟨none, false⟩)
      | .ok _ => (.ok ⟨opened.shared.bindings.length, true⟩,
          (opened.say [.begin c s (.ok ())]).bind ⟨some c, true⟩) := by
  let i := opened.shared.bindings.length
  have hpin : ((u.handle .pool).pin u.driver).on w =
      (.ok ⟨i, true⟩, opened.bind ⟨some c, false⟩) := Action.on_bind_ok h
  have hbinding : (opened.bind ⟨some c, false⟩).binding? i = some ⟨some c, false⟩ :=
    World.binding?_bind_length
  rw [begin, Action.on_bind_ok hpin, Action.on_bind_ok (Action.on_attempt _ _),
    on_begin_bound u s .pool hbinding rfl, World.calls_bind]
  cases u.replies.begin opened.calls c s with
  | error e =>
    have habandon := on_abandon u .pool
      (w := (opened.bind ⟨some c, false⟩).say [.begin c s (.error e)]) hbinding
    refine (Action.on_bind_ok habandon).trans ?_
    rw [World.put_say, World.say_say, ← World.put_say, World.put_bind]
    rfl
  | ok a =>
    rw [← World.put_say, World.put_bind]
    rfl

theorem on_begin_pool_error {opened : World} {e : Error}
    (h : (acquire u.driver).on w = (.error e, opened)) :
    ((u.handle .pool).begin u.driver s).on w = (.error e, opened) := by
  have hpin : ((u.handle .pool).pin u.driver).on w = (.error e, opened) :=
    Action.on_bind_error h
  rw [begin, Action.on_bind_error hpin]

end Begin

section Finish

variable {w} {α : Type} {p : Pinned} {b : Binding} {c : Connection} (scope : Scope)

theorem on_leave (h : w.binding? p.binding = some b) (hc : b.connection = some c) :
    (leave u.driver p).on w = (.ok ⟨⟩, w.left p c) := by
  rw [leave, Action.on_bind_ok (Binding.on_update h _), World.left]
  cases p.owned with
  | false =>
    rw [hc]
    rfl
  | true =>
    have hholds : (w.put p.binding { b with inTransaction := false }).holds? p.binding = some c :=
      (World.holds?_of_binding? (World.binding?_put h _)).trans hc
    refine (Binding.on_release u _ _).trans ?_
    rw [hholds, World.put_put]
    rfl

theorem on_rollbackAfter (w : World) (c : Connection) (e : Error) :
    ((u.handle scope).rollbackAfter u.driver c e).on w =
      (.ok (e.undone (u.replies.rollback w.calls c)),
        w.say [.rollback c (u.replies.rollback w.calls c)]) := by
  have htell : (Action.tell (u.driver.rollback c ((u.handle scope).executor u.driver c))).on w =
      (.ok (u.replies.rollback w.calls c),
        w.say [.rollback c (u.replies.rollback w.calls c)]) := rfl
  rw [rollbackAfter, Action.on_bind_ok htell]
  cases u.replies.rollback w.calls c <;> rfl

section Bound

variable (h : w.binding? p.binding = some b) (hc : b.connection = some c)
include h hc

theorem on_finish_error (e : Error) :
    ((u.handle scope).finish u.driver p (.error e : Except Error α)).on w =
      (.error (e.undone (u.replies.rollback w.calls c)),
        (w.say [.rollback c (u.replies.rollback w.calls c)]).left p c) := by
  have hcurrent := Binding.on_current ((World.holds?_of_binding? h).trans hc)
  have hleave : ∀ xs, (leave u.driver p).on (w.say xs) = (.ok ⟨⟩, (w.say xs).left p c) :=
    fun xs => on_leave u (w := w.say xs) h hc
  rw [finish, Action.on_bind_ok hcurrent]
  simp only [Action.on_bind, on_rollbackAfter, Action.on_pure, hleave, Action.on_ofExcept]

theorem on_finish_ok (a : α) :
    ((u.handle scope).finish u.driver p (.ok a)).on w =
      match u.replies.commit w.calls c with
      | .ok _ => (.ok a, (w.say [.commit c (.ok ())]).left p c)
      | .error e =>
        let back := u.replies.rollback (w.calls ++ [.commit c (.error e)]) c
        (.error (e.undone back), (w.say [.commit c (.error e), .rollback c back]).left p c) := by
  have hcurrent := Binding.on_current ((World.holds?_of_binding? h).trans hc)
  have hleave : ∀ xs, (leave u.driver p).on (w.say xs) = (.ok ⟨⟩, (w.say xs).left p c) :=
    fun xs => on_leave u (w := w.say xs) h hc
  have htell : (Action.tell (u.driver.commit c ((u.handle scope).executor u.driver c))).on w =
      (.ok (u.replies.commit w.calls c), w.say [.commit c (u.replies.commit w.calls c)]) := rfl
  rw [finish, Action.on_bind_ok hcurrent]
  cases hcommit : u.replies.commit w.calls c with
  | ok a' => simp only [Action.on_bind, htell, hcommit, Action.on_pure, hleave, Action.on_ofExcept]
  | error e =>
    simp only [Action.on_bind, htell, hcommit, on_rollbackAfter, Action.on_pure, World.say_say,
      World.calls_say, List.singleton_append, hleave, Action.on_ofExcept]

/-- Whatever the outcome of its body, a transaction on a connection is settled and left. -/
theorem on_finish (outcome : Except Error α) :
    ∃ ending r, Settles c outcome ending r ∧
      ((u.handle scope).finish u.driver p outcome).on w = (r, (w.say ending).left p c) := by
  cases outcome with
  | error e => exact ⟨_, _, .undone e _, on_finish_error u scope h hc e⟩
  | ok a =>
    have hon := on_finish_ok u scope h hc a
    cases hcommit : u.replies.commit w.calls c with
    | ok a' =>
      rw [hcommit] at hon
      exact ⟨_, _, .committed a, hon⟩
    | error e =>
      rw [hcommit] at hon
      exact ⟨_, _, .uncommitted a e _, hon⟩

end Bound

theorem on_finish_none (h : w.holds? p.binding = none) (outcome : Except Error α) :
    ((u.handle scope).finish u.driver p outcome).on w = (.error (.transaction .finished), w) := by
  rw [finish, Action.on_bind_error (Binding.on_current_none h)]

end Finish

section Transaction

variable {w} {v : World} {α : Type} (scope : Scope) (s : TransactionSettings)
  (body : Database Taped → Action Taped α)

theorem on_transaction {p : Pinned} (h : ((u.handle scope).begin u.driver s).on w = (.ok p, v)) :
    ((u.handle scope).transaction s body).on w =
      let performed := (body (u.handle (.transaction p.binding))).on v
      ((u.handle scope).finish u.driver p performed.1).on performed.2 := by
  rw [transaction, Action.on_bind_ok (on_requireDriver u w _), Action.on_bind_ok h]
  exact Action.on_bind_ok (Action.on_attempt _ v)

/-- Without a transaction there is no body. -/
theorem on_transaction_error {e : Error}
    (h : ((u.handle scope).begin u.driver s).on w = (.error e, v)) :
    ((u.handle scope).transaction s body).on w = (.error e, v) := by
  rw [transaction, Action.on_bind_ok (on_requireDriver u w _), Action.on_bind_error h]

end Transaction

section Statement

variable {w} {α : Type} {i : Nat} {c : Connection} {scope : Scope} {opened : World}
  (use : Driver Taped → Connection → Action Taped α)

theorem on_withConnection (hs : (u.handle scope).binding? = some i) (h : w.holds? i = some c) :
    ((u.handle scope).withConnection use).on w = (use u.driver c).on w := by
  rw [withConnection, Action.on_bind_ok (on_requireDriver u w _), hs]
  exact Action.on_bind_ok (Binding.on_current h)

theorem on_withConnection_none (hs : (u.handle scope).binding? = some i)
    (h : w.holds? i = none) :
    ((u.handle scope).withConnection use).on w = (.error (.transaction .finished), w) := by
  rw [withConnection, Action.on_bind_ok (on_requireDriver u w _), hs]
  exact Action.on_bind_error (Binding.on_current_none h)

/-- A connection of the pool is given back whether its use fails or not. -/
theorem on_withConnection_pool (h : (acquire u.driver).on w = (.ok c, opened)) :
    ((u.handle .pool).withConnection use).on w =
      (((use u.driver c).on opened).1, ((use u.driver c).on opened).2.say [.release c]) := by
  rw [withConnection, Action.on_bind_ok (on_requireDriver u w _)]
  refine (Action.on_bind_ok h).trans ?_
  rw [Action.on_bind_ok (Action.on_attempt _ _)]
  refine (Action.on_bind_ok rfl).trans ?_
  rw [Action.on_ofExcept]
  rfl

theorem on_withConnection_pool_error {e : Error}
    (h : (acquire u.driver).on w = (.error e, opened)) :
    ((u.handle .pool).withConnection use).on w = (.error e, opened) := by
  rw [withConnection, Action.on_bind_ok (on_requireDriver u w _)]
  exact Action.on_bind_error h

/-- What is logged does not reach the driver. -/
theorem record_eq_pure {α : Type} (q : Compiled) (r : Except Error α) :
    Log.record (u.handle scope).log q r = pure () := by
  rw [Client.handle]
  cases u.levels with
  | none => rfl
  | some levels =>
    show (if _ then _ else _) = _
    split <;> rfl

theorem executor_eq (c : Connection) (q : Compiled) :
    (u.handle scope).executor u.driver c q =
      .answer (fun calls => u.replies.execute calls c q) (.execute c q) := by
  simp only [executor, record_eq_pure]
  rfl

theorem on_fetched (c : Connection) (q : Compiled) (n : Nat) (w : World) :
    Action.on (do
        let chunks ← Action.tell (u.driver.stream c q n)
        match chunks with
        | k :: _ => Action.tell (Log.record (u.handle scope).log q k)
        | [] => pure ()
        return chunks) w =
      (.ok (u.replies.stream w.calls c q n),
        w.say [.stream c q n (u.replies.stream w.calls c q n)]) := by
  have htell : (Action.tell (u.driver.stream c q n)).on w =
      (.ok (u.replies.stream w.calls c q n),
        w.say [.stream c q n (u.replies.stream w.calls c q n)]) := rfl
  rw [Action.on_bind_ok htell]
  cases u.replies.stream w.calls c q n with
  | nil => rfl
  | cons k ks =>
    simp only [record_eq_pure]
    rfl

end Statement

end Database

namespace Controlled

variable (u : Client) {w : World} {t : Controlled} {b : Binding} {c : Connection} (scope : Scope)

/-- Whether a transaction was ended by hand. -/
def endedIn (t : Controlled) (w : World) : Bool := w.shared.ended[t.number]?.getD true

theorem on_isEnded (w : World) :
    (t.isEnded : Action Taped Bool).on w = (.ok (t.endedIn w), w) := rfl

theorem on_finish_ended (h : t.endedIn w = true) (commit : Bool) :
    (t.finish (u.handle scope) commit).on w = (.error (.transaction .closed), w) := by
  rw [finish, Action.on_bind_ok (Database.on_requireDriver u w _),
    Action.on_bind_ok (on_isEnded w), h]
  rfl

/-- A transaction is marked as ended before its connection is looked for. -/
theorem on_finish (h : t.endedIn w = false) (hb : w.binding? t.pinned.binding = some b)
    (hc : b.connection = some c) (commit : Bool) :
    (t.finish (u.handle scope) commit).on w =
      if commit then (u.replies.commit w.calls c,
        ((w.setEnded t.number).say [.commit c (u.replies.commit w.calls c)]).left t.pinned c)
      else (u.replies.rollback w.calls c,
        ((w.setEnded t.number).say
          [.rollback c (u.replies.rollback w.calls c)]).left t.pinned c) := by
  have hcurrent : (Binding.current t.pinned.binding : Action Taped Connection).on
      (w.setEnded t.number) = (.ok c, w.setEnded t.number) :=
    Binding.on_current ((World.holds?_of_binding? (w := w.setEnded t.number) hb).trans hc)
  have hleave : ∀ xs, (Database.leave u.driver t.pinned).on ((w.setEnded t.number).say xs) =
      (.ok ⟨⟩, ((w.setEnded t.number).say xs).left t.pinned c) :=
    fun xs => Database.on_leave u (w := (w.setEnded t.number).say xs) hb hc
  rw [finish, Action.on_bind_ok (Database.on_requireDriver u w _),
    Action.on_bind_ok (on_isEnded w), h]
  show Action.on (modify _ >>= fun _ => Binding.current _ >>= _) w = _
  rw [Action.on_bind_ok (v := w.setEnded t.number) rfl, Action.on_bind_ok hcurrent]
  cases commit with
  | true =>
    rw [Action.on_bind_ok (v := (w.setEnded t.number).say
      [.commit c (u.replies.commit w.calls c)]) rfl, Action.on_bind_ok (hleave _)]
    exact Action.on_ofExcept _ _
  | false =>
    rw [Action.on_bind_ok (v := (w.setEnded t.number).say
      [.rollback c (u.replies.rollback w.calls c)]) rfl, Action.on_bind_ok (hleave _)]
    exact Action.on_ofExcept _ _

theorem on_finish_none (h : t.endedIn w = false) (hc : w.holds? t.pinned.binding = none)
    (commit : Bool) :
    (t.finish (u.handle scope) commit).on w =
      (.error (.transaction .finished), w.setEnded t.number) := by
  rw [finish, Action.on_bind_ok (Database.on_requireDriver u w _),
    Action.on_bind_ok (on_isEnded w), h]
  show Action.on (modify _ >>= fun _ => Binding.current _ >>= _) w = _
  rw [Action.on_bind_ok (v := w.setEnded t.number) rfl]
  exact Action.on_bind_error (Binding.on_current_none (w := w.setEnded t.number) hc)

theorem on_onConnection (h : w.holds? t.pinned.binding = some c)
    (f : Driver Taped → Connection → Executor Taped → Taped (Except Error Unit)) :
    (t.onConnection (u.handle scope) f).on w =
      (Action.call (f u.driver c ((u.handle scope).executor u.driver c))).on w := by
  rw [onConnection, Action.on_bind_ok (Database.on_requireDriver u w _),
    Action.on_bind_ok (Binding.on_current h)]

theorem on_onConnection_none (h : w.holds? t.pinned.binding = none)
    (f : Driver Taped → Connection → Executor Taped → Taped (Except Error Unit)) :
    (t.onConnection (u.handle scope) f).on w = (.error (.transaction .finished), w) := by
  rw [onConnection, Action.on_bind_ok (Database.on_requireDriver u w _),
    Action.on_bind_error (Binding.on_current_none h)]

theorem on_drop (w : World) :
    (t.drop (u.handle scope)).on w =
      if t.pinned.owned then ((u.handle scope).abandon u.driver t.pinned.binding).on w
      else (.ok ⟨⟩, w) := by
  rw [drop, Action.on_bind_ok (Database.on_requireDriver u w _)]
  cases t.pinned.owned <;> rfl

end Controlled

end SqlTree
