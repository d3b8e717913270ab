import SqlTree.Database.Transaction
import SqlTree.Proofs.Database.Notes

/-!
# What a log is told

Whoever uses the handles and whatever the driver does, a statement is followed by one event of its
own, except that a stream is reported by its first chunk (`Session.minutes_logged`).  So a stream
without chunks is not reported at all, and one that breaks off later is reported as a success; all
other statements are reported as they should be (`Session.minutes_due_iff`).
-/

namespace SqlTree

namespace Binding

open Action

theorem reports_get? (i : Nat) : Reports (get? i) := reports_get.bind fun _ => reports_pure _

theorem reports_new (c : Connection) : Reports (new c) :=
  reports_get.bind fun _ => (reports_modify _).bind fun _ => reports_pure _

theorem reports_update (i : Nat) (f : Binding → Binding) : Reports (update i f) :=
  reports_modify _

theorem reports_current (i : Nat) : Reports (current i) := by
  refine (reports_get? i).bind fun b => ?_
  cases b.bind Binding.connection with
  | some c => exact reports_pure c
  | none => exact reports_throw _

theorem reports_giveBack (u : Reporter) (c : Connection) :
    Noted.Reports (u.driver.release c) := by
  have hlogged : ∀ _ : Unit, (Call.release c).logged = [] := fun _ => rfl
  exact Noted.reports_answer (fun _ => ()) hlogged

theorem reports_release (u : Reporter) (i : Nat) : Reports (release u.driver i) := by
  refine (reports_get? i).bind fun b => (reports_update i _).bind fun _ => ?_
  cases b.bind Binding.connection with
  | some c => exact reports_tell (reports_giveBack u c)
  | none => exact reports_pure _

end Binding

namespace Database

open Action Binding

variable (u : Reporter) (scope : Scope) {α : Type}

theorem reports_rollback (c : Connection) : Noted.Reports
    (u.driver.rollback c ((u.handle scope).executor u.driver c)) :=
  Noted.reports_talk _ (Noted.reports_executor u scope c) fun _ => rfl

theorem reports_commit (c : Connection) : Noted.Reports
    (u.driver.commit c ((u.handle scope).executor u.driver c)) :=
  Noted.reports_talk _ (Noted.reports_executor u scope c) fun _ => rfl

theorem requireDriver_bind (f : Driver Noted → Action Noted α) :
    (u.handle scope).requireDriver >>= f = f u.driver := rfl

theorem reports_acquire (u : Reporter) : Reports (acquire u.driver) := by
  have hprepare : Reports (prepare u.driver) := by
    refine reports_get.bind fun s => ?_
    cases s.initialized with
    | true => exact reports_pure _
    | false =>
      exact (reports_call (Noted.reports_answer _ fun _ => rfl)).bind fun _ => reports_modify _
  exact hprepare.bind fun _ => reports_call (Noted.reports_answer _ fun _ => rfl)

theorem reports_withConnection {use : Driver Noted → Connection → Action Noted α}
    (h : ∀ c, Reports (use u.driver c)) :
    Reports ((u.handle scope).withConnection use) := by
  have hpool : Reports (acquire u.driver >>= fun c =>
      (use u.driver c).attempt >>= fun r =>
        Action.tell (u.driver.release c) >>= fun _ => Action.ofExcept r) :=
    (reports_acquire u).bind fun c => (h c).attempt.bind fun r =>
      (reports_tell (reports_giveBack u c)).bind fun _ => reports_ofExcept r
  cases scope with
  | pool => exact hpool
  | connection i => exact (reports_current i).bind h
  | transaction i => exact (reports_current i).bind h

theorem reports_run (n : Node) : Reports ((u.handle scope).run n) := by
  rw [run, runInto]
  refine (reports_ofExcept _).bind fun q => ?_
  have hsent : Reports ((u.handle scope).withConnection fun d c =>
      Action.call ((u.handle scope).executor d c q)) :=
    reports_withConnection u scope fun c => reports_call (Noted.reports_executor u scope c q)
  exact hsent.bind fun r => reports_ofExcept _

/-- A stream that is read to its end has the event of its first chunk, if it has a chunk. -/
theorem reports_fetch (q : Compiled) (chunkSize : Nat) :
    Reports ((u.handle scope).fetch q chunkSize) := by
  refine reports_withConnection u scope fun c s notes => ?_
  refine ⟨_, ?_, .single (x := .stream c q chunkSize (u.conduct.stream notes c q chunkSize))⟩
  rw [run_tell_bind]
  have hstream : (u.driver.stream c q chunkSize).run notes =
      (u.conduct.stream notes c q chunkSize,
        notes ++ [.call (.stream c q chunkSize (u.conduct.stream notes c q chunkSize))]) := rfl
  rw [hstream]
  cases u.conduct.stream notes c q chunkSize with
  | nil => rfl
  | cons k ks =>
    simp only [Noted.record_callback, run_tell_bind]
    exact List.append_assoc ..

/-- A statement that is streamed, with all its chunks. -/
def drain {m : Type → Type} [Monad m] (db : Database m) (n : Node) (chunkSize : Nat) :
    Action m (List (Except Error QueryResult)) := do
  db.fetch (← Action.ofExcept (db.compile n)) chunkSize

theorem reports_drain (n : Node) (chunkSize : Nat) :
    Reports ((u.handle scope).drain n chunkSize) :=
  (reports_ofExcept _).bind fun q => reports_fetch u scope q chunkSize

/-- What a reader makes of the chunks is not noted. -/
theorem notes_stream (n : Node) (chunkSize : Nat) (limit : Option Nat) (s : Shared)
    (notes : List Note) :
    ((((u.handle scope).stream n chunkSize limit).run.run s).run notes).2 =
      ((((u.handle scope).drain n chunkSize).run.run s).run notes).2 := by
  rw [stream, drain]
  cases (u.handle scope).compile n with
  | error e => rfl
  | ok q =>
    rw [ofExcept_ok_bind, ofExcept_ok_bind, run_attempt_bind]
    cases ((((u.handle scope).fetch q chunkSize).run.run s).run notes).1.1 <;> rfl

theorem reports_abandon (i : Nat) : Reports ((u.handle scope).abandon u.driver i) := by
  refine (reports_get? i).bind fun b => ?_
  match b with
  | none => exact reports_pure _
  | some ⟨none, inTransaction⟩ => exact reports_pure _
  | some ⟨some c, false⟩ => exact reports_release u i
  | some ⟨some c, true⟩ =>
    exact (reports_tell (reports_rollback u scope c)).bind fun _ => reports_release u i

theorem reports_begin (s : TransactionSettings) :
    Reports ((u.handle scope).begin u.driver s) := by
  have hpin : Reports ((u.handle scope).pin u.driver) := by
    cases scope with
    | pool => exact (reports_acquire u).bind fun c => (reports_new c).bind fun _ => reports_pure _
    | connection i => exact reports_pure _
    | transaction i => exact reports_throw _
  refine hpin.bind fun p => ?_
  have hbegun : Reports (do
      let c ← current p.binding
      Action.call (u.driver.begin c ((u.handle scope).executor u.driver c) s)
      update p.binding fun binding => { binding with inTransaction := true }) :=
    (reports_current _).bind fun c =>
      (reports_call (Noted.reports_talk _ (Noted.reports_executor u scope c) fun _ => rfl)).bind
        fun _ => reports_update _ _
  refine hbegun.attempt.bind fun begun => ?_
  cases begun with
  | ok a => exact reports_pure p
  | error e =>
    cases p.owned with
    | true => exact (reports_abandon u scope _).bind fun _ => reports_throw e
    | false => exact reports_throw e

theorem reports_leave (u : Reporter) (p : Pinned) : Reports (leave u.driver p) := by
  refine (reports_update _ _).bind fun _ => ?_
  cases p.owned with
  | true => exact reports_release u _
  | false => exact reports_pure _

theorem reports_finish (p : Pinned) (outcome : Except Error α) :
    Reports ((u.handle scope).finish u.driver p outcome) := by
  refine (reports_current _).bind fun c => ?_
  have hback : ∀ e, Reports ((u.handle scope).rollbackAfter u.driver c e) := fun e =>
    (reports_tell (reports_rollback u scope c)).bind fun a => by
      cases a <;> exact reports_pure _
  have hleave : ∀ r : Except Error α,
      Reports (leave u.driver p >>= fun _ => Action.ofExcept r) :=
    fun r => (reports_leave u p).bind fun _ => reports_ofExcept r
  cases outcome with
  | error e => exact (hback e).bind fun e => hleave (.error e)
  | ok a =>
    refine (reports_tell (reports_commit u scope c)).bind fun committed => ?_
    cases committed with
    | ok _ => exact hleave (.ok a)
    | error e => exact (hback e).bind fun e => hleave (.error e)

section Bodies

variable {body : Database Noted → Action Noted α} (h : ∀ scope, Reports (body (u.handle scope)))
include h

theorem reports_transaction (s : TransactionSettings) :
    Reports ((u.handle scope).transaction s body) :=
  (reports_begin u scope s).bind fun p => (h (.transaction p.binding)).attempt.bind fun outcome =>
    reports_finish u scope p outcome

theorem reports_transactionUnless (fault? : α → Option Error) (s : TransactionSettings) :
    Reports ((u.handle scope).transactionUnless fault? s body) := by
  refine (reports_begin u scope s).bind fun p => (h (.transaction p.binding)).attempt.bind
    fun outcome => ?_
  cases outcome with
  | error e => exact reports_finish u scope p _
  | ok a =>
    refine (reports_finish u scope p _).attempt.bind fun r => ?_
    cases r <;> exact reports_pure _

theorem reports_connection : Reports ((u.handle scope).connection body) := by
  cases scope with
  | connection i => exact h (.connection i)
  | transaction i => exact h (.transaction i)
  | pool =>
    exact (reports_acquire u).bind fun c => (reports_new c).bind fun i =>
      (h (.connection i)).attempt.bind fun outcome => (reports_release u i).bind fun _ =>
        reports_ofExcept outcome

end Bodies

theorem reports_startTransaction (s : TransactionSettings) :
    Reports ((u.handle scope).startTransaction s) :=
  (reports_begin u scope s).bind fun _ => reports_get.bind fun _ => (reports_modify _).bind
    fun _ => reports_pure _

theorem reports_destroy : Reports (u.handle scope).destroy := by
  refine reports_get.bind fun s => ?_
  cases s.initialized with
  | true => exact reports_call (Noted.reports_answer _ fun _ => rfl)
  | false => exact reports_pure _

end Database

namespace Controlled

open Action Binding

variable (u : Reporter) (scope : Scope) (t : Controlled)

theorem reports_finish (commit : Bool) : Reports (t.finish (u.handle scope) commit) := by
  have hended : Reports (t.isEnded : Action Noted Bool) := reports_get.bind fun _ => reports_pure _
  rw [finish, Database.requireDriver_bind]
  refine hended.bind fun b => ?_
  cases b with
  | true => exact reports_throw _
  | false =>
    refine (reports_modify _).bind fun _ => (reports_current _).bind fun c => ?_
    have hend : Noted.Reports (if commit
        then u.driver.commit c ((u.handle scope).executor u.driver c)
        else u.driver.rollback c ((u.handle scope).executor u.driver c)) := by
      cases commit with
      | true => exact Database.reports_commit u scope c
      | false => exact Database.reports_rollback u scope c
    exact (reports_tell hend).bind fun r =>
      (Database.reports_leave u _).bind fun _ => reports_ofExcept r

theorem reports_onConnection
    {f : Driver Noted → Connection → Executor Noted → Noted (Except Error Unit)}
    (h : ∀ c, Noted.Reports
      (f u.driver c ((u.handle scope).executor u.driver c))) :
    Reports (t.onConnection (u.handle scope) f) :=
  (reports_current _).bind fun c => reports_call (h c)

theorem reports_savepoint (name : String) : Reports (t.savepoint (u.handle scope) name) :=
  t.reports_onConnection u scope fun c =>
    Noted.reports_talk _ (Noted.reports_executor u scope c) fun _ => rfl

theorem reports_rollbackTo (name : String) : Reports (t.rollbackTo (u.handle scope) name) :=
  t.reports_onConnection u scope fun c =>
    Noted.reports_talk _ (Noted.reports_executor u scope c) fun _ => rfl

theorem reports_releaseSavepoint (name : String) :
    Reports (t.releaseSavepoint (u.handle scope) name) :=
  t.reports_onConnection u scope fun c =>
    Noted.reports_talk _ (Noted.reports_executor u scope c) fun _ => rfl

theorem reports_drop : Reports (t.drop (u.handle scope)) := by
  obtain ⟨⟨i, owned⟩, number⟩ := t
  cases owned with
  | true => exact Database.reports_abandon u scope i
  | false => exact reports_pure _

end Controlled

/-! ## Sessions -/

/-- What is asked of handles and of transactions that are ended by hand, in any order and also
after their time. -/
inductive Errand where
  | run (scope : Scope) (n : Node)
  | drain (scope : Scope) (n : Node) (chunkSize : Nat)
  | start (scope : Scope) (s : TransactionSettings)
  | finish (t : Controlled) (commit : Bool)
  | savepoint (t : Controlled) (name : String)
  | rollbackTo (t : Controlled) (name : String)
  | releaseSavepoint (t : Controlled) (name : String)
  | drop (t : Controlled)
  /-- Gives back a connection whose handles are gone. -/
  | abandon (i : Nat)
  | destroy

namespace Errand

def Answer : Errand → Type
  | .run .. => QueryResult
  | .drain .. => List (Except Error QueryResult)
  | .start .. => Controlled × Database Noted
  | _ => Unit

variable (u : Reporter)

def action : (x : Errand) → Action Noted x.Answer
  | .run scope n => (u.handle scope).run n
  | .drain scope n chunkSize => (u.handle scope).drain n chunkSize
  | .start scope s => (u.handle scope).startTransaction s
  | .finish t commit => t.finish (u.handle .pool) commit
  | .savepoint t name => t.savepoint (u.handle .pool) name
  | .rollbackTo t name => t.rollbackTo (u.handle .pool) name
  | .releaseSavepoint t name => t.releaseSavepoint (u.handle .pool) name
  | .drop t => t.drop (u.handle .pool)
  | .abandon i => (u.handle .pool).abandon u.driver i
  | .destroy => (u.handle .pool).destroy

theorem reports_action (x : Errand) : Action.Reports (x.action u) := by
  cases x with
  | run scope n => exact Database.reports_run u scope n
  | drain scope n chunkSize => exact Database.reports_drain u scope n chunkSize
  | start scope s => exact Database.reports_startTransaction u scope s
  | finish t commit => exact t.reports_finish u .pool commit
  | savepoint t name => exact t.reports_savepoint u .pool name
  | rollbackTo t name => exact t.reports_rollbackTo u .pool name
  | releaseSavepoint t name => exact t.reports_releaseSavepoint u .pool name
  | drop t => exact t.reports_drop u .pool
  | abandon i => exact Database.reports_abandon u .pool i
  | destroy => exact Database.reports_destroy u .pool

end Errand

/-- A use of a database, each step chosen by what those before it came to. -/
inductive Session : Type → Type 1 where
  | done {α : Type} (r : Except Error α) : Session α
  | ask {α : Type} (x : Errand) (next : Except Error x.Answer → Session α) : Session α
  | transaction {α β : Type} (scope : Scope) (s : TransactionSettings) (body : Scope → Session β)
    (next : Except Error β → Session α) : Session α
  | transactionUnless {α β : Type} (scope : Scope) (fault? : β → Option Error)
    (s : TransactionSettings) (body : Scope → Session β)
    (next : Except Error (β × Option Error) → Session α) : Session α
  | connection {α β : Type} (scope : Scope) (body : Scope → Session β)
    (next : Except Error β → Session α) : Session α

namespace Session

variable (u : Reporter)

def perform : {α : Type} → Session α → Action Noted α
  | _, .done r => Action.ofExcept r
  | _, .ask x next => do
    let r ← (x.action u).attempt
    (next r).perform
  | _, .transaction scope s body next => do
    let r ← ((u.handle scope).transaction s fun db => (body db.scope).perform).attempt
    (next r).perform
  | _, .transactionUnless scope fault? s body next => do
    let r ← ((u.handle scope).transactionUnless fault? s
      fun db => (body db.scope).perform).attempt
    (next r).perform
  | _, .connection scope body next => do
    let r ← ((u.handle scope).connection fun db => (body db.scope).perform).attempt
    (next r).perform

theorem reports_perform {α : Type} (p : Session α) : Action.Reports (p.perform u) := by
  induction p with
  | done r => exact Action.reports_ofExcept r
  | ask x next ih => exact (x.reports_action u).attempt.bind ih
  | transaction scope s body next hbody ih =>
    exact (Database.reports_transaction u scope (fun scope => hbody scope) s).attempt.bind ih
  | transactionUnless scope fault? s body next hbody ih =>
    exact (Database.reports_transactionUnless u scope (fun scope => hbody scope) fault?
      s).attempt.bind ih
  | connection scope body next hbody ih =>
    exact (Database.reports_connection u scope fun scope => hbody scope).attempt.bind ih

/-- All that is noted when a session uses a new database. -/
def notes {α : Type} (p : Session α) : List Note := (((p.perform u).run.run {}).run []).2

theorem minutes_logged {α : Type} (p : Session α) : Minutes Call.logged (p.notes u) := by
  obtain ⟨more, hmore, hminutes⟩ := p.reports_perform u {} []
  rw [notes, hmore]
  exact hminutes

/-- Whatever the driver does, each statement of a session has exactly one event, an error if it
failed at any point, unless the session drains a stream that has no chunks or fails only after its
first one. -/
theorem minutes_due_iff {α : Type} (p : Session α) :
    Minutes Call.due (p.notes u) ↔ ∀ c q chunkSize chunks,
      Note.call (.stream c q chunkSize chunks) ∈ p.notes u → Call.Telling chunks := by
  rw [(p.minutes_logged u).iff_agree]
  constructor
  · intro h c q chunkSize chunks hx
    exact (Call.logged_stream_iff c q chunkSize chunks).mp (h _ hx)
  · intro h x hx
    rw [Call.logged_eq_due_iff]
    rintro c q chunkSize chunks rfl
    exact h c q chunkSize chunks hx

end Session

/-- A user of a driver that grants everything, and streams these chunks. -/
def Reporter.streaming (chunks : List (Except Error QueryResult)) : Reporter where
  conduct := {
    dialect := .postgres
    init _ := .ok ()
    acquire _ := .ok ⟨0⟩
    execute _ _ _ := .ok {}
    stream _ _ _ _ := chunks
    destroy _ := .ok () }

/-- A stream without rows has no event, and one that breaks off after its first row has the event of
a success. -/
theorem Session.not_minutes_due_streaming :
    let p : Session Unit := .ask (.drain .pool (.raw "select 1") 1) fun _ => .done (.ok ())
    let q : Compiled := .raw "select 1"
    let broken : List (Except Error QueryResult) := [.ok { rows := [[]] }, .error .noResult]
    (p.notes (.streaming []) = [.call (.init (.ok ())), .call (.acquire (.ok ⟨0⟩)),
        .call (.stream ⟨0⟩ q 1 []), .call (.release ⟨0⟩)] ∧
      ¬ Minutes Call.due (p.notes (.streaming []))) ∧
    (p.notes (.streaming broken) = [.call (.init (.ok ())), .call (.acquire (.ok ⟨0⟩)),
        .call (.stream ⟨0⟩ q 1 broken), .event ⟨"select 1", [], none⟩, .call (.release ⟨0⟩)] ∧
      ¬ Minutes Call.due (p.notes (.streaming broken))) := by
  intro p q broken
  have hempty : p.notes (.streaming []) = [.call (.init (.ok ())), .call (.acquire (.ok ⟨0⟩)),
      .call (.stream ⟨0⟩ q 1 []), .call (.release ⟨0⟩)] := rfl
  have hbroken : p.notes (.streaming broken) = [.call (.init (.ok ())),
      .call (.acquire (.ok ⟨0⟩)), .call (.stream ⟨0⟩ q 1 broken),
      .event ⟨"select 1", [], none⟩, .call (.release ⟨0⟩)] := rfl
  refine ⟨⟨hempty, fun h => ?_⟩, hbroken, fun h => ?_⟩
  · have hagree := ((p.minutes_logged (.streaming [])).iff_agree.mp h) (.stream ⟨0⟩ q 1 [])
      (by rw [hempty]; simp)
    simp [Call.logged, Call.due] at hagree
  · have hagree := ((p.minutes_logged (.streaming broken)).iff_agree.mp h)
      (.stream ⟨0⟩ q 1 broken) (by rw [hbroken]; simp)
    simp [Call.logged, Call.due, broken, Log.event, firstError?] at hagree

end SqlTree
