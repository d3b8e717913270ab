import SqlTree.Database.Stream
import SqlTree.Proofs.Database.Journal

/-!
# Calls and events on one tape

A database whose handles report to a callback, with a tape on which calls and events stand in the
order in which they come (`Note`).  Notes are in order if each call is followed by its events
(`Minutes`): by those that are due, or by those that are logged, which differ for streams only
(`Call.logged_eq_due_iff`).  An action reports if it adds notes in order (`Action.Reports`).
-/

namespace SqlTree

/-- The first error of some chunks. -/
def firstError? : List (Except Error QueryResult) → Option Error
  | [] => none
  | .error e :: _ => some e
  | .ok _ :: ks => firstError? ks

theorem firstError?_eq_none_iff (ks : List (Except Error QueryResult)) :
    firstError? ks = none ↔ ks.all Stream.isOk = true := by
  induction ks with
  | nil => simp [firstError?]
  | cons k ks ih => cases k <;> simp [firstError?, Stream.isOk, ih]

namespace Call

/-- The events that a log should get for a call: one for a statement, with the error of a statement
that failed at any point. -/
def due : Call → List LogEvent
  | .execute _ q a => [Log.event q a]
  | .stream _ q _ chunks => [⟨q.sql, q.parameters, firstError? chunks⟩]
  | _ => []

/-- The events that a log gets for a call. -/
def logged : Call → List LogEvent
  | .execute _ q a => [Log.event q a]
  | .stream _ q _ (k :: _) => [Log.event q k]
  | _ => []

/-- The first chunk tells how a stream ends: there is one, and it fails or no chunk does. -/
def Telling : List (Except Error QueryResult) → Prop
  | [] => False
  | .error _ :: _ => True
  | .ok _ :: ks => ks.all Stream.isOk = true

theorem logged_stream_iff (c : Connection) (q : Compiled) (chunkSize : Nat)
    (chunks : List (Except Error QueryResult)) :
    (stream c q chunkSize chunks).logged = (stream c q chunkSize chunks).due ↔ Telling chunks := by
  match chunks with
  | [] => simp [logged, due, Telling]
  | .error e :: ks => simp [logged, due, Telling, Log.event, firstError?]
  | .ok r :: ks =>
    have hevent : (stream c q chunkSize (.ok r :: ks)).logged =
        (stream c q chunkSize (.ok r :: ks)).due ↔ firstError? ks = none := by
      simp [logged, due, Log.event, firstError?, eq_comm]
    rw [hevent, firstError?_eq_none_iff, Telling]

/-- Only a stream is reported otherwise than it should be. -/
theorem logged_eq_due_iff (x : Call) :
    x.logged = x.due ↔ ∀ c q chunkSize chunks, x = .stream c q chunkSize chunks →
      Telling chunks := by
  cases x with
  | stream c q chunkSize chunks =>
    rw [logged_stream_iff]
    constructor
    · rintro h c q chunkSize chunks ⟨⟩
      exact h
    · exact fun h => h c q chunkSize chunks rfl
  | _ => simp [logged, due]

end Call

/-- A call of a driver, or an event that reaches the log. -/
inductive Note where
  | call (x : Call)
  | event (e : LogEvent)

/-- Notes in which each call is followed by its events, and no event comes otherwise. -/
inductive Minutes (f : Call → List LogEvent) : List Note → Prop
  | nil : Minutes f []
  | call (x : Call) {notes : List Note} (h : Minutes f notes) :
    Minutes f (.call x :: ((f x).map .event ++ notes))

namespace Minutes

variable {f g : Call → List LogEvent} {xs ys : List Note}

theorem append (hx : Minutes f xs) (hy : Minutes f ys) : Minutes f (xs ++ ys) := by
  induction hx with
  | nil => exact hy
  | call x _ ih =>
    rw [List.cons_append, List.append_assoc]
    exact .call x ih

theorem single {x : Call} : Minutes f (.call x :: (f x).map .event) := by
  simpa using Minutes.call (f := f) x .nil

/-- What follows the events of a call is nothing or another call, so it tells them apart. -/
theorem events_inj (hx : Minutes f xs) (hy : Minutes g ys) {es es' : List LogEvent}
    (h : es.map Note.event ++ xs = es'.map Note.event ++ ys) : es = es' ∧ xs = ys := by
  induction es generalizing es' with
  | nil =>
    cases es' with
    | nil => exact ⟨rfl, h⟩
    | cons e es' => cases hx <;> simp at h
  | cons e es ih =>
    cases es' with
    | nil => cases hy <;> simp at h
    | cons e' es' =>
      simp only [List.map_cons, List.cons_append, List.cons.injEq, Note.event.injEq] at h
      obtain ⟨rfl, h⟩ := h
      obtain ⟨rfl, rfl⟩ := ih h
      exact ⟨rfl, rfl⟩

/-- The same notes fit two ways of booking if these agree on all calls among them. -/
theorem iff_agree (hf : Minutes f xs) : Minutes g xs ↔ ∀ x, Note.call x ∈ xs → f x = g x := by
  induction hf with
  | nil => exact ⟨fun _ _ h => (List.not_mem_nil h).elim, fun _ => .nil⟩
  | @call x notes hf ih =>
    constructor
    · intro hg
      generalize hnotes : Note.call x :: ((f x).map .event ++ notes) = all at hg
      cases hg with
      | nil => cases hnotes
      | @call y notes' hg =>
        simp only [List.cons.injEq, Note.call.injEq] at hnotes
        obtain ⟨rfl, hnotes⟩ := hnotes
        obtain ⟨hx, rfl⟩ := events_inj hf hg hnotes
        intro z hz
        rcases List.mem_cons.mp hz with hz | hz
        · cases hz
          exact hx
        · rcases List.mem_append.mp hz with hz | hz
          · obtain ⟨e, -, he⟩ := List.mem_map.mp hz
            cases he
          · exact ih.mp hg z hz
    · intro h
      rw [h x List.mem_cons_self]
      refine .call x (ih.mpr fun z hz => h z ?_)
      exact List.mem_cons_of_mem _ (List.mem_append_right _ hz)

end Minutes

abbrev Noted := Journal Note

/-- Who uses such a database, with a callback for the log of all handles. -/
structure Reporter where
  conduct : Conduct Note
  plugins : List Plugin := []

namespace Reporter

variable (u : Reporter)

def driver : Driver Noted := u.conduct.driver .call

def handle (scope : Scope) : Database Noted where
  dialect := u.conduct.dialect
  driver := some u.driver
  log := some (.callback fun e => .write (.event e))
  plugins := u.plugins
  scope := scope

end Reporter

/-! ## Calls and actions that report -/

/-- Whatever was noted before, what comes to it are calls with the events of their first answers. -/
def Noted.Reports {α : Type} (x : Noted α) : Prop :=
  ∀ notes, ∃ more, (x.run notes).2 = notes ++ more ∧ Minutes Call.logged more

namespace Noted

variable {α β : Type} {x : Noted α}

theorem reports_pure (a : α) : Reports (pure a : Noted α) :=
  fun notes => ⟨[], (List.append_nil notes).symm, .nil⟩

theorem reports_get : Reports (get : Noted (List Note)) :=
  fun notes => ⟨[], (List.append_nil notes).symm, .nil⟩

theorem Reports.bind {f : α → Noted β} (hx : x.Reports) (hf : ∀ a, (f a).Reports) :
    Reports (x >>= f) := by
  intro notes
  obtain ⟨xs, hxs, hminutes⟩ := hx notes
  obtain ⟨ys, hys, hminutes'⟩ := hf (x.run notes).1 (x.run notes).2
  refine ⟨xs ++ ys, ?_, hminutes.append hminutes'⟩
  calc ((x >>= f).run notes).2 = ((f (x.run notes).1).run (x.run notes).2).2 := rfl
    _ = (notes ++ xs) ++ ys := by rw [hys, hxs]
    _ = notes ++ (xs ++ ys) := List.append_assoc ..

/-- A call that is no statement has no event. -/
theorem reports_answer (reply : List Note → α) {call : α → Call} (h : ∀ a, (call a).logged = []) :
    Reports (Journal.answer reply fun a => .call (call a)) := by
  intro notes
  refine ⟨_, rfl, ?_⟩
  have hsingle := Minutes.single (f := Call.logged) (x := call (reply notes))
  rwa [h] at hsingle

/-- A callback is told of every event. -/
theorem record_callback (u : Reporter) (scope : Scope) {α : Type} (q : Compiled)
    (r : Except Error α) : Log.record (u.handle scope).log q r =
      Journal.write (.event (Log.event q r)) := by
  have hlevel : (Log.callback fun e => Journal.write (Note.event e)).levels.contains
      (Log.event q r).level = true := by
    rw [LogEvent.level]
    cases (Log.event q r).error <;> rfl
  exact if_pos hlevel

theorem reports_executor (u : Reporter) (scope : Scope) (c : Connection) (q : Compiled) :
    Reports ((u.handle scope).executor u.driver c q) := by
  intro notes
  refine ⟨_, ?_, Minutes.single (x := .execute c q (u.conduct.execute notes c q))⟩
  have hrun : (u.handle scope).executor u.driver c q =
      u.driver.execute c q >>= fun r =>
        Journal.write (.event (Log.event q r)) >>= fun _ => pure r := by
    simp only [Database.executor, record_callback]
  rw [hrun]
  exact List.append_assoc ..

theorem reports_through {run : Executor Noted} (h : ∀ q, Reports (run q)) (t : Talk) :
    Reports (t.through run) := by
  induction t with
  | done r => exact reports_pure r
  | say q next ih => exact (h q).bind ih

theorem reports_talk (plan : List Note → Talk) {run : Executor Noted} (h : ∀ q, Reports (run q))
    {call : Except Error Unit → Call} (hcall : ∀ a, (call a).logged = []) :
    Reports (Journal.talk plan run fun a => .call (call a)) :=
  reports_get.bind fun _ => (reports_through h _).bind fun _ => reports_answer _ hcall

end Noted

namespace Action

variable {α β : Type}

/-- In whatever state the handles are, an action reports what it does. -/
def Reports (x : Action Noted α) : Prop := ∀ s, Noted.Reports (x.run.run s)

theorem run_tell_bind (x : Noted α) (f : α → Action Noted β) (s : Shared) (notes : List Note) :
    ((tell x >>= f).run.run s).run notes =
      ((f (x.run notes).1).run.run s).run (x.run notes).2 := rfl

theorem ofExcept_ok_bind (a : α) (f : α → Action Noted β) :
    Action.ofExcept (.ok a) >>= f = f a := rfl

theorem run_attempt_bind (x : Action Noted α) (f : Except Error α → Action Noted β) (s : Shared)
    (notes : List Note) : ((x.attempt >>= f).run.run s).run notes =
      ((f ((x.run.run s).run notes).1.1).run.run ((x.run.run s).run notes).1.2).run
        ((x.run.run s).run notes).2 := rfl

theorem reports_pure (a : α) : Reports (pure a) := fun _ => Noted.reports_pure _

theorem reports_throw (e : Error) : Reports (throw e : Action Noted α) :=
  fun _ => Noted.reports_pure _

theorem reports_get : Reports get := fun _ => Noted.reports_pure _

theorem reports_modify (f : Shared → Shared) : Reports (modify f) := fun _ => Noted.reports_pure _

theorem reports_ofExcept (r : Except Error α) : Reports (ofExcept r) := by
  cases r with
  | ok a => exact reports_pure a
  | error e => exact reports_throw e

theorem Reports.bind {x : Action Noted α} {f : α → Action Noted β} (hx : x.Reports)
    (hf : ∀ a, (f a).Reports) : Reports (x >>= f) := by
  intro s
  have hbind : (x >>= f).run.run s =
      x.run.run s >>= fun y => (ExceptT.bindCont f y.1).run y.2 := rfl
  rw [hbind]
  refine (hx s).bind fun y => ?_
  obtain ⟨r, s'⟩ := y
  cases r with
  | ok a => exact hf a s'
  | error e => exact Noted.reports_pure _

theorem Reports.attempt {x : Action Noted α} (hx : x.Reports) : x.attempt.Reports := by
  intro s
  have hrun : x.attempt.run.run s = x.run.run s >>= fun y => pure (.ok y.1, y.2) := rfl
  rw [hrun]
  exact (hx s).bind fun _ => Noted.reports_pure _

theorem reports_call {x : Noted (Except Error α)} (hx : x.Reports) : Reports (call x) := by
  intro s
  have hrun : (call x).run.run s = x >>= fun r => pure (r, s) := rfl
  rw [hrun]
  exact hx.bind fun _ => Noted.reports_pure _

theorem reports_tell {x : Noted α} (hx : x.Reports) : Reports (tell x) := by
  intro s
  have hrun : (tell x).run.run s = x >>= fun a => pure (.ok a, s) := rfl
  rw [hrun]
  exact hx.bind fun _ => Noted.reports_pure _

end Action

end SqlTree
