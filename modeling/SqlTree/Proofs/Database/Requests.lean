import SqlTree.Proofs.Database.Closure
import SqlTree.Proofs.Database.Phase
import Mathlib.Data.PNat.Notation

/-!
# Requests of a transaction

What is asked of a transaction that is ended by hand while it goes on: statements through its
handle, and savepoints.  A request is one call on the connection of the transaction, or it is
refused (`Request.on_perform`, `Request.on_perform_none`).
-/

namespace SqlTree

/-- A statement or savepoint.  Who reads a stream takes at least one row, or the error in its
place. -/
inductive Request where
  | run (n : Node)
  | stream (n : Node) (chunkSize : Nat) (limit : Option ℕ+)
  | savepoint (name : String)
  | rollbackTo (name : String)
  | releaseSavepoint (name : String)

inductive Answer where
  | result (r : QueryResult)
  | rows (rs : List (Except Error Row))
  | done

namespace Request

section

variable {m : Type → Type} [Monad m]

/-- A request made through a transaction and its handle. -/
def perform (t : Controlled) (db : Database m) : Request → Action m Answer
  | .run n => do return .result (← db.run n)
  | .stream n chunkSize limit => do return .rows (← db.stream n chunkSize (limit.map PNat.val))
  | .savepoint name => do
    t.savepoint db name
    return .done
  | .rollbackTo name => do
    t.rollbackTo db name
    return .done
  | .releaseSavepoint name => do
    t.releaseSavepoint db name
    return .done

end

/-- The answer to a request that gets no connection. -/
def refused (e : Error) : Request → Except Error Answer
  | .stream .. => .ok (.rows [.error e])
  | _ => .error e

/-- The statement of a request compiles, if it has one. -/
def Compiles (u : Client) : Request → Prop
  | .run n => ∃ q, u.compile n = .ok q
  | .stream n _ _ => ∃ q, u.compile n = .ok q
  | _ => True

/-- The call of a request on a connection, with the answer that is made of the driver's. -/
inductive Sends (u : Client) (c : Connection) : Request → Call → Except Error Answer → Prop
  | run {n : Node} {q : Compiled} (hn : u.compile n = .ok q) (a : Except Error QueryResult) :
    Sends u c (.run n) (.execute c q a) ((u.receive a).map .result)
  | stream {n : Node} {chunkSize : Nat} {limit : Option ℕ+} {q : Compiled}
    (hn : u.compile n = .ok q) (chunks : List (Except Error QueryResult)) :
    Sends u c (.stream n chunkSize limit) (.stream c q chunkSize chunks)
      (.ok (.rows (Stream.read u.plugins (limit.map PNat.val) { task := .fetching chunks })))
  | savepoint {name : String} (a : Except Error Unit) :
    Sends u c (.savepoint name) (.savepoint c name a) (a.map fun _ => .done)
  | rollbackTo {name : String} (a : Except Error Unit) :
    Sends u c (.rollbackTo name) (.rollbackTo c name a) (a.map fun _ => .done)
  | releaseSavepoint {name : String} (a : Except Error Unit) :
    Sends u c (.releaseSavepoint name) (.releaseSavepoint c name a) (a.map fun _ => .done)

/-- The request has a statement that does not compile. -/
inductive Unsent (u : Client) : Request → Error → Prop
  | run {n : Node} {e : Error} (hn : u.compile n = .error e) : Unsent u (.run n) e
  | stream {n : Node} {chunkSize : Nat} {limit : Option ℕ+} {e : Error}
    (hn : u.compile n = .error e) : Unsent u (.stream n chunkSize limit) e

theorem compiles_or_unsent (u : Client) (r : Request) : r.Compiles u ∨ ∃ e, r.Unsent u e := by
  cases r with
  | run n =>
    cases hn : u.compile n with
    | ok q => exact .inl ⟨q, hn⟩
    | error e => exact .inr ⟨e, .run hn⟩
  | stream n chunkSize limit =>
    cases hn : u.compile n with
    | ok q => exact .inl ⟨q, hn⟩
    | error e => exact .inr ⟨e, .stream hn⟩
  | _ => exact .inl trivial

end Request

namespace Stream

/-- A stream without a connection has one error for its reader. -/
theorem read_refused (plugins : List Plugin) (e : Error) (limit : Option ℕ+) :
    read plugins (limit.map PNat.val) { task := .refused e } = [.error e] := by
  have hsome : limit.map PNat.val ≠ some 0 := by
    cases limit with
    | none => simp
    | some k => exact fun h => Nat.ne_of_gt k.2 (Option.some.inj h)
  have hend : ∀ limit, read plugins limit { task := .ended } = [] := fun limit => by
    rw [read]
    simp [take?, receive?, step?]
  -- the task sends the error and ends, the reader receives it and takes it
  rw [read, if_neg hsome]
  simp only [take?, receive?, step?, Option.isSome_some]
  rw [read, if_neg hsome]
  simp only [take?, receive?, rows]
  rw [read, if_neg hsome]
  simp only [take?, hend]

end Stream

namespace Database

variable (u : Client) {w : World} {i : Nat} {n : Node} {q : Compiled} {scope : Scope}
  (hs : (u.handle scope).binding? = some i) (h : w.holds? i = none) (hn : u.compile n = .ok q)
include hs h hn

theorem on_run_none : ((u.handle scope).run n).on w = (.error (.transaction .finished), w) := by
  rw [run, runInto, Action.on_bind_ok (on_compile u hn w), sendInto,
    Action.on_bind_error (on_withConnection_none u _ hs h)]

theorem on_stream_none (chunkSize : Nat) (limit : Option ℕ+) :
    ((u.handle scope).stream n chunkSize (limit.map PNat.val)).on w =
      (.ok [.error (.transaction .finished)], w) := by
  have hfetch : ((u.handle scope).fetch q chunkSize).on w =
      (.error (.transaction .finished), w) := on_withConnection_none u _ hs h
  rw [stream, Action.on_bind_ok (on_compile u hn w), Action.on_bind_ok (Action.on_attempt _ w),
    hfetch]
  exact congrArg (·, w) (congrArg Except.ok (Stream.read_refused _ _ limit))

end Database

namespace Request

variable (u : Client) {w : World} {t : Controlled} {c : Connection} {r : Request}

/-- A request is one call on the connection of its transaction. -/
theorem on_perform (h : w.holds? t.pinned.binding = some c) (hr : r.Compiles u) :
    ∃ x a, Sends u c r x a ∧
      (r.perform t (u.handle (.transaction t.pinned.binding))).on w = (a, w.say [x]) := by
  have hmap : ∀ {α : Type} {x : Action Taped α} {a : Except Error α} {v : World} (f : α → Answer),
      x.on w = (a, v) → (x >>= fun r => pure (f r)).on w = (a.map f, v) := by
    intro α x a v f hx
    rw [Action.on_bind, hx]
    cases a <;> rfl
  cases r with
  | run n =>
    obtain ⟨q, hn⟩ := hr
    exact ⟨_, _, .run hn _, hmap .result (Database.on_run u rfl h hn)⟩
  | stream n chunkSize limit =>
    obtain ⟨q, hn⟩ := hr
    exact ⟨_, _, .stream hn _, hmap .rows (Database.on_stream u rfl h hn chunkSize _)⟩
  | savepoint name =>
    exact ⟨_, _, .savepoint _, hmap (fun _ => .done) (Controlled.on_onConnection u _ h _)⟩
  | rollbackTo name =>
    exact ⟨_, _, .rollbackTo _, hmap (fun _ => .done) (Controlled.on_onConnection u _ h _)⟩
  | releaseSavepoint name =>
    exact ⟨_, _, .releaseSavepoint _, hmap (fun _ => .done) (Controlled.on_onConnection u _ h _)⟩

theorem on_perform_unsent {e : Error} (h : r.Unsent u e) (scope : Scope) (w : World) :
    (r.perform t (u.handle scope)).on w = (.error e, w) := by
  cases h with
  | run hn => exact Action.on_bind_error (Database.on_run_unsent u hn w)
  | stream hn => exact Action.on_bind_error (Database.on_stream_unsent u hn _ _ w)

/-- Without a connection a request is refused. -/
theorem on_perform_none (h : w.holds? t.pinned.binding = none) (hr : r.Compiles u) :
    (r.perform t (u.handle (.transaction t.pinned.binding))).on w =
      (r.refused (.transaction .finished), w) := by
  cases r with
  | run n =>
    obtain ⟨q, hn⟩ := hr
    exact Action.on_bind_error (Database.on_run_none u rfl h hn)
  | stream n chunkSize limit =>
    obtain ⟨q, hn⟩ := hr
    exact Action.on_bind_ok (Database.on_stream_none u rfl h hn chunkSize limit)
  | savepoint name => exact Action.on_bind_error (Controlled.on_onConnection_none u _ h _)
  | rollbackTo name => exact Action.on_bind_error (Controlled.on_onConnection_none u _ h _)
  | releaseSavepoint name => exact Action.on_bind_error (Controlled.on_onConnection_none u _ h _)

end Request

end SqlTree
