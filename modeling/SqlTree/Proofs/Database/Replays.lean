import SqlTree.Database.Stream
import SqlTree.Proofs.Database.HandlePaths

/-!
# Replays of handles

Acts that handles can replay, one operation after another: the ways back from acts to paths.
-/

namespace SqlTree

open Action

variable (u : Party) {α : Type} {s : Shared} {acts : List Act} {scope : Scope} {i : Nat}
  {c : Connection}

namespace Database

section

variable {goOn : Except Error Unit → Shared → List Act → Prop}

@[simp] theorem replays_requireDriver
    {goOn : Except Error (Driver Paths) → Shared → List Act → Prop} :
    (u.handle scope).requireDriver.Replays s acts goOn ↔ goOn (.ok u.driver) s acts :=
  (silent_requireDriver u scope s).replays

@[simp] theorem replays_giveBack :
    (Action.tell (u.driver.release c)).Replays s (.call (.release c) :: acts) goOn ↔
      goOn (.ok ()) s acts :=
  replays_tell (fun _ => .call (.release c)) (fun _ _ _ => rfl) (fun _ _ => Iff.rfl) ()

end

@[simp] theorem replays_driverAcquire (a : Except Error Connection)
    {goOn : Except Error Connection → Shared → List Act → Prop} :
    (Action.call u.driver.acquire).Replays s (.call (.acquire a) :: acts) goOn ↔ goOn a s acts :=
  replays_call (fun _ _ h => by cases h; rfl) (fun _ _ => Iff.rfl) a

@[simp] theorem replays_execute (q : Compiled) (a : Except Error QueryResult)
    {goOn : Except Error QueryResult → Shared → List Act → Prop} :
    (Action.call ((u.handle scope).executor u.driver c q)).Replays s
      (.call (.execute c q a) :: acts) goOn ↔ goOn a s acts :=
  replays_call (fun _ _ h => (Call.execute.inj (Act.call.inj h)).2.2)
    (fun _ _ => executor_iff u scope c q _ _) a

variable {n : Node} {q : Compiled} (a : Except Error QueryResult)
  {goOn : Except Error QueryResult → Shared → List Act → Prop}

/-- A statement on a connection of the pool. -/
theorem replays_run_pool (hn : u.compile n = .ok q) (hs : s.initialized = true) :
    ((u.handle .pool).run n).Replays s
      (.call (.acquire (.ok c)) :: .call (.execute c q a) :: .call (.release c) :: acts) goOn ↔
        goOn (u.receive a) s acts := by
  have hcompile : (u.handle .pool).compile n = .ok q := hn
  have hpool : (u.handle .pool).binding? = none := rfl
  simp only [run, runInto, sendInto, withConnection, acquire, prepare, hcompile, hpool, hs, if_true,
    replays_bind, replays_ofExcept, replays_requireDriver, replays_get, replays_pure,
    replays_driverAcquire, replays_attempt, replays_execute, replays_giveBack]
  cases a <;> rfl

theorem replays_withConnection {use : Driver Paths → Connection → Action Paths α}
    (hs : (u.handle scope).binding? = some i) (h : s.holds? i = some c)
    {goOn : Except Error α → Shared → List Act → Prop} :
    ((u.handle scope).withConnection use).Replays s acts goOn ↔
      (use u.driver c).Replays s acts goOn := by
  simp only [Replays, does_withConnection u hs h]

@[simp] theorem replays_release (h : s.holds? i = some c)
    {goOn : Except Error Unit → Shared → List Act → Prop} :
    (Binding.release u.driver i).Replays s (.call (.release c) :: acts) goOn ↔
      goOn (.ok ()) (s.change i fun _ => ⟨none, false⟩) acts := by
  have hc : (s.bindings[i]?).bind Binding.connection = some c := h
  simp only [Binding.release, replays_bind, (Binding.silent_get? i s).replays,
    (Binding.silent_update i _ s).replays, hc, replays_giveBack]

/-- A body on a connection of its own. -/
theorem replays_connection (hs : s.initialized = true)
    {body : Database Paths → Action Paths α}
    {goOn : Except Error α → Shared → List Act → Prop} :
    ((u.handle .pool).connection body).Replays s (.call (.acquire (.ok c)) :: acts) goOn ↔
      (body (u.handle (.connection s.bindings.length))).Replays (s.bind ⟨some c, false⟩) acts
        fun r t rest => Action.Replays (do
          Binding.release u.driver s.bindings.length
          Action.ofExcept r) t rest goOn := by
  have hpool : ¬(u.handle .pool).binding?.isSome = true := nofun
  simp only [connection, if_neg hpool, acquire, prepare, hs, if_true, replays_bind,
    replays_requireDriver, replays_get, replays_pure, replays_driverAcquire, replays_attempt,
    (Binding.silent_new c s).replays, replays_ofExcept]
  rfl

/-- A statement on a bound connection. -/
theorem replays_run (hn : u.compile n = .ok q) (hs : (u.handle scope).binding? = some i)
    (h : s.holds? i = some c) :
    ((u.handle scope).run n).Replays s (.call (.execute c q a) :: acts) goOn ↔
      goOn (u.receive a) s acts := by
  have hcompile : (u.handle scope).compile n = .ok q := hn
  simp only [run, runInto, sendInto, withConnection, hcompile, hs, replays_bind, replays_ofExcept,
    replays_requireDriver, (Binding.silent_current h).replays, replays_execute]
  cases a <;> rfl

end Database

end SqlTree
