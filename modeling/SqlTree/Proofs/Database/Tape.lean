import SqlTree.Database.Transaction

/-!
# Databases on tape

A driver whose answers may be any functions of the calls before them, and that keeps these calls on
a tape.  What an action does on such a database is a result, a tape and the state that the handles
share (`Action.on`).
-/

namespace SqlTree

/-- A call of a driver with its answer. -/
inductive Call where
  | init (answer : Except Error Unit)
  | acquire (answer : Except Error Connection)
  | release (c : Connection)
  | execute (c : Connection) (q : Compiled) (answer : Except Error QueryResult)
  | stream (c : Connection) (q : Compiled) (chunkSize : Nat)
    (chunks : List (Except Error QueryResult))
  | begin (c : Connection) (s : TransactionSettings) (answer : Except Error Unit)
  | commit (c : Connection) (answer : Except Error Unit)
  | rollback (c : Connection) (answer : Except Error Unit)
  | savepoint (c : Connection) (name : String) (answer : Except Error Unit)
  | rollbackTo (c : Connection) (name : String) (answer : Except Error Unit)
  | releaseSavepoint (c : Connection) (name : String) (answer : Except Error Unit)
  | destroy (answer : Except Error Unit)

namespace Call

/-- The number of connections given out. -/
def acquired : List Call → Nat
  | [] => 0
  | .acquire (.ok _) :: calls => acquired calls + 1
  | _ :: calls => acquired calls

theorem acquired_append (xs ys : List Call) : acquired (xs ++ ys) = acquired xs + acquired ys := by
  induction xs with
  | nil => exact (Nat.zero_add _).symm
  | cons x xs ih =>
    cases x with
    | acquire a =>
      cases a with
      | error e => exact ih
      | ok c =>
        simp only [List.cons_append, acquired, ih]
        omega
    | _ => exact ih

end Call

abbrev Taped := StateM (List Call)

/-- An answer, put on the tape with its call. -/
def Taped.answer {α : Type} (reply : List Call → α) (call : α → Call) : Taped α :=
  fun calls => (reply calls, calls ++ [call (reply calls)])

/-- The answers of a driver, each from the calls before it. -/
structure Replies where
  init : List Call → Except Error Unit
  acquire : List Call → Except Error Unit
  execute : List Call → Connection → Compiled → Except Error QueryResult
  stream : List Call → Connection → Compiled → Nat → List (Except Error QueryResult)
  begin : List Call → Connection → TransactionSettings → Except Error Unit
  commit : List Call → Connection → Except Error Unit
  rollback : List Call → Connection → Except Error Unit
  savepoint : List Call → Connection → String → Except Error Unit
  rollbackTo : List Call → Connection → String → Except Error Unit
  releaseSavepoint : List Call → Connection → String → Except Error Unit
  destroy : List Call → Except Error Unit

/-- The driver with these answers.  Connections are numbered as they are given out, so one that was
given back and is given out again counts as another. -/
def Replies.driver (r : Replies) (dialect : Dialect) : Driver Taped where
  dialect := dialect
  init := .answer r.init .init
  acquire := .answer (fun calls => (r.acquire calls).map fun _ => ⟨Call.acquired calls⟩) .acquire
  release c := .answer (fun _ => ()) fun _ => .release c
  execute c q := .answer (fun calls => r.execute calls c q) (.execute c q)
  stream c q n := .answer (fun calls => r.stream calls c q n) (.stream c q n)
  begin c _ s := .answer (fun calls => r.begin calls c s) (.begin c s)
  commit c _ := .answer (fun calls => r.commit calls c) (.commit c)
  rollback c _ := .answer (fun calls => r.rollback calls c) (.rollback c)
  savepoint c _ name := .answer (fun calls => r.savepoint calls c name) (.savepoint c name)
  rollbackTo c _ name := .answer (fun calls => r.rollbackTo calls c name) (.rollbackTo c name)
  releaseSavepoint c _ name :=
    .answer (fun calls => r.releaseSavepoint calls c name) (.releaseSavepoint c name)
  destroy := .answer r.destroy .destroy

/-- A client of such a driver, with the log levels and plugins of its handles.  What it logs does
not reach the driver. -/
structure Client where
  replies : Replies
  dialect : Dialect
  levels : Option (List LogLevel) := none
  plugins : List Plugin := []

namespace Client

variable (u : Client)

def driver : Driver Taped := u.replies.driver u.dialect

def handle (scope : Scope) : Database Taped where
  dialect := u.dialect
  driver := some u.driver
  log := u.levels.map fun levels => ⟨levels, fun _ => pure ()⟩
  plugins := u.plugins
  scope := scope

/-- A client of a driver that grants everything. -/
def granting : Client where
  dialect := .postgres
  replies := {
    init _ := .ok ()
    acquire _ := .ok ()
    execute _ _ _ := .ok {}
    stream _ _ _ _ := []
    begin _ _ _ := .ok ()
    commit _ _ := .ok ()
    rollback _ _ := .ok ()
    savepoint _ _ _ := .ok ()
    rollbackTo _ _ _ := .ok ()
    releaseSavepoint _ _ _ := .ok ()
    destroy _ := .ok () }

end Client

/-- What the handles of a database share, and the tape of its driver. -/
structure World where
  shared : Shared
  calls : List Call

namespace World

variable (w : World)

def say (calls : List Call) : World := { w with calls := w.calls ++ calls }

def binding? (i : Nat) : Option Binding := w.shared.bindings[i]?

/-- The connection in a binding. -/
def holds? (i : Nat) : Option Connection := (w.binding? i).bind Binding.connection

/-- Puts something else into a binding. -/
def put (i : Nat) (b : Binding) : World :=
  { w with shared := { w.shared with bindings := w.shared.bindings.modify i fun _ => b } }

def bind (b : Binding) : World :=
  { w with shared := { w.shared with bindings := w.shared.bindings ++ [b] } }

def setInitialized (b : Bool) : World := { w with shared := { w.shared with initialized := b } }

/-- A transaction on `c` has left its binding. -/
def left (p : Pinned) (c : Connection) : World :=
  if p.owned then (w.put p.binding ⟨none, false⟩).say [.release c]
  else w.put p.binding ⟨some c, false⟩

/-- Ends a transaction that is ended by hand. -/
def setEnded (number : Nat) : World :=
  { w with shared := { w.shared with ended := w.shared.ended.set number true } }

end World

namespace Action

variable {α β : Type}

/-- What an action does in a world. -/
def on (x : Action Taped α) (w : World) : Except Error α × World :=
  let y := Id.run ((x.run.run w.shared).run w.calls)
  (y.1.1, ⟨y.1.2, y.2⟩)

@[simp] theorem on_pure (a : α) (w : World) : (pure a : Action Taped α).on w = (.ok a, w) := rfl

@[simp] theorem on_get (w : World) : (get : Action Taped Shared).on w = (.ok w.shared, w) := rfl

@[simp] theorem on_modify (f : Shared → Shared) (w : World) :
    (modify f : Action Taped PUnit).on w = (.ok ⟨⟩, { w with shared := f w.shared }) := rfl

@[simp] theorem on_ofExcept (r : Except Error α) (w : World) :
    (ofExcept r : Action Taped α).on w = (r, w) := by
  cases r <;> rfl

@[simp] theorem on_attempt (x : Action Taped α) (w : World) :
    x.attempt.on w = (.ok (x.on w).1, (x.on w).2) := rfl

@[simp] theorem on_call_answer (reply : List Call → Except Error α)
    (call : Except Error α → Call) (w : World) :
    (Action.call (Taped.answer reply call)).on w =
      (reply w.calls, w.say [call (reply w.calls)]) := rfl

variable {x : Action Taped α} {f : α → Action Taped β} {w v : World}

theorem on_bind (x : Action Taped α) (f : α → Action Taped β) (w : World) :
    (x >>= f).on w = match x.on w with
      | (.ok a, w') => (f a).on w'
      | (.error e, w') => (.error e, w') := by
  simp only [on, ExceptT.run_bind, StateT.run_bind, Id.run_bind]
  generalize hy : Id.run ((x.run.run w.shared).run w.calls) = y
  obtain ⟨⟨r, s⟩, calls⟩ := y
  cases r <;> rfl

theorem on_bind_ok {a : α} (h : x.on w = (.ok a, v)) : (x >>= f).on w = (f a).on v := by
  rw [on_bind, h]

theorem on_bind_error {e : Error} (h : x.on w = (.error e, v)) :
    (x >>= f).on w = (.error e, v) := by
  rw [on_bind, h]

end Action

namespace World

variable {w : World} {i j : Nat} {b : Binding} {c : Connection}

@[simp] theorem calls_say (xs : List Call) : (w.say xs).calls = w.calls ++ xs := rfl

@[simp] theorem say_nil : w.say [] = w := by simp [say]

@[simp] theorem say_say (xs ys : List Call) : (w.say xs).say ys = w.say (xs ++ ys) := by
  simp [say]

@[simp] theorem calls_put : (w.put i b).calls = w.calls := rfl

@[simp] theorem put_say (xs : List Call) : (w.put i b).say xs = (w.say xs).put i b := rfl

@[simp] theorem put_put (b' : Binding) : (w.put i b).put i b' = w.put i b' := by
  simp [put, List.modify_modify_eq, Function.comp_def]

@[simp] theorem calls_bind : (w.bind b).calls = w.calls := rfl

theorem holds?_of_binding? (h : w.binding? i = some b) : w.holds? i = b.connection := by
  simp [holds?, h]

theorem exists_of_holds? (h : w.holds? i = some c) :
    ∃ inTransaction, w.binding? i = some ⟨some c, inTransaction⟩ := by
  obtain ⟨⟨connection, inTransaction⟩, hb, rfl⟩ := Option.bind_eq_some_iff.mp h
  exact ⟨inTransaction, hb⟩

theorem binding?_put (h : w.binding? i = some b) (b' : Binding) :
    (w.put i b').binding? i = some b' := by
  simp only [binding?] at h
  simp [binding?, put, h]

theorem binding?_put_ne (h : i ≠ j) : (w.put i b).binding? j = w.binding? j := by
  simp [binding?, put, h]

/-- Emptying a binding puts no connection into one. -/
theorem binding?_of_put {b' : Binding} (h : (w.put i ⟨none, false⟩).binding? j = some b')
    (hb : b'.connection = some c) : w.binding? j = some b' := by
  by_cases hij : i = j
  · subst hij
    obtain ⟨b, hw⟩ : ∃ b, w.binding? i = some b := by
      cases hw : w.binding? i with
      | some b => exact ⟨b, rfl⟩
      | none =>
        simp only [binding?] at hw
        simp [binding?, put, hw] at h
    rw [binding?_put hw] at h
    cases h
    cases hb
  · rwa [binding?_put_ne hij] at h

theorem put_bind (w : World) (b b' : Binding) :
    (w.bind b).put w.shared.bindings.length b' = w.bind b' := by
  have hmodify : ∀ bs : List Binding,
      (bs ++ [b]).modify bs.length (fun _ => b') = bs ++ [b'] := by
    intro bs
    induction bs with
    | nil => rfl
    | cons a bs ih => simpa using ih
  simp [bind, put, hmodify]

theorem binding?_bind_length : (w.bind b).binding? w.shared.bindings.length = some b := by
  simp [binding?, bind]

theorem binding?_bind_cases {b' : Binding} (h : (w.bind b).binding? i = some b') :
    w.binding? i = some b' ∨ i = w.shared.bindings.length ∧ b' = b := by
  simp only [binding?, bind] at h ⊢
  by_cases hi : i < w.shared.bindings.length
  · rw [List.getElem?_append_left hi] at h
    exact .inl h
  · rw [List.getElem?_append_right (by omega), List.getElem?_singleton] at h
    split at h
    · exact .inr ⟨by omega, (Option.some.inj h).symm⟩
    · cases h

section

variable {v : World} {d : Connection}

theorem binding?_congr (h : v.shared.bindings = w.shared.bindings) : v.binding? = w.binding? :=
  funext fun i => congrArg (fun bs : List Binding => bs[i]?) h

theorem holds?_congr (h : v.shared.bindings = w.shared.bindings) : v.holds? = w.holds? :=
  funext fun i => by rw [holds?, binding?_congr h]; rfl

theorem holds?_put_ne {b : Binding} (h : i ≠ j) : (w.put i b).holds? j = w.holds? j := by
  rw [holds?, binding?_put_ne h]
  rfl

/-- A binding that is emptied is the only one that changes. -/
theorem holds?_emptied (h : (w.put i ⟨none, false⟩).holds? j = some d) :
    i ≠ j ∧ w.holds? j = some d := by
  obtain ⟨marked, hb⟩ := exists_of_holds? h
  have hold := holds?_of_binding? (binding?_of_put hb rfl)
  refine ⟨?_, hold⟩
  rintro rfl
  obtain ⟨marked', hb'⟩ := exists_of_holds? hold
  rw [holds?_of_binding? (binding?_put hb' _)] at h
  cases h

theorem holds?_marked (h : w.holds? i = some c) (inTransaction : Bool) :
    (w.put i ⟨some c, inTransaction⟩).holds? = w.holds? := funext fun j => by
  by_cases hij : i = j
  · subst hij
    obtain ⟨marked, hb⟩ := exists_of_holds? h
    rw [h, holds?_of_binding? (binding?_put hb _)]
  · exact holds?_put_ne hij

/-- An empty binding may be emptied again. -/
theorem put_emptied (h : w.holds? i = none)
    (hmarked : ∀ {marked}, w.binding? i = some ⟨none, marked⟩ → marked = false) :
    w.put i ⟨none, false⟩ = w := by
  have hmodify : w.shared.bindings.modify i (fun _ => ⟨none, false⟩) = w.shared.bindings := by
    refine List.ext_getElem? fun j => ?_
    by_cases hij : i = j
    · subst hij
      cases hb : w.binding? i with
      | none =>
        rw [binding?] at hb
        simp [hb]
      | some b =>
        obtain ⟨connection, marked⟩ := b
        obtain rfl : connection = none := (holds?_of_binding? hb).symm.trans h
        obtain rfl := hmarked hb
        rw [binding?] at hb
        simp [hb]
    · simp [hij]
  rw [put, hmodify]

theorem binding?_bind {b b' : Binding} (h : w.binding? i = some b) :
    (w.bind b').binding? i = some b := by
  obtain ⟨hi, -⟩ := List.getElem?_eq_some_iff.mp h
  exact (List.getElem?_append_left hi).trans h

end

end World

namespace Binding

variable {w : World} {i : Nat} {b : Binding} {c : Connection}

@[simp] theorem on_get? (w : World) (i : Nat) :
    (get? i : Action Taped (Option Binding)).on w = (.ok (w.binding? i), w) := rfl

theorem on_new (w : World) (c : Connection) :
    (new c : Action Taped Nat).on w = (.ok w.shared.bindings.length, w.bind ⟨some c, false⟩) := rfl

/-- An update of a binding that is there. -/
theorem on_update (h : w.binding? i = some b) (f : Binding → Binding) :
    (update i f : Action Taped PUnit).on w = (.ok ⟨⟩, w.put i (f b)) := by
  simp only [World.binding?] at h
  have hbindings : w.shared.bindings.modify i f = w.shared.bindings.modify i fun _ => f b := by
    apply List.ext_getElem?
    intro j
    by_cases hj : i = j
    · subst hj
      simp [h]
    · simp [hj]
  rw [update, Action.on_modify, hbindings]
  rfl

theorem on_current (h : w.holds? i = some c) :
    (current i : Action Taped Connection).on w = (.ok c, w) := by
  rw [current, Action.on_bind_ok (on_get? w i)]
  rw [World.holds?] at h
  rw [h]
  rfl

theorem on_current_none (h : w.holds? i = none) :
    (current i : Action Taped Connection).on w = (.error (.transaction .finished), w) := by
  rw [current, Action.on_bind_ok (on_get? w i)]
  rw [World.holds?] at h
  rw [h]
  rfl

/-- A binding is emptied, and the connection that was in it is given back. -/
theorem on_release (u : Client) (w : World) (i : Nat) :
    (release u.driver i).on w =
      (.ok ⟨⟩, (w.put i ⟨none, false⟩).say ((w.holds? i).toList.map .release)) := by
  rw [release, Action.on_bind_ok (on_get? w i)]
  show Action.on (update i _ >>= _) w = _
  rw [Action.on_bind_ok (v := w.put i ⟨none, false⟩) rfl, World.holds?]
  cases (w.binding? i).bind Binding.connection with
  | none => simp
  | some c => rfl

end Binding

end SqlTree
