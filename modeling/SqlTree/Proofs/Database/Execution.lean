import SqlTree.Proofs.Database.HandlePaths
import SqlTree.Proofs.Database.Journal

/-!
# The way of a statement

Plugins may have effects of their own, so when they run matters: the outbound ones before there is a
connection, the inbound ones after it was given back.  What plugins and driver do for a statement
stands in one journal (`Deed`), and whatever they answer it is one of few histories (`Executes`).
-/

namespace SqlTree

namespace Action

variable {m : Type → Type} [Monad m] {α β : Type}

theorem ofExcept_bind [LawfulMonad m] (x : Except Error α) (f : α → Except Error β) :
    (ofExcept (x >>= f) : Action m β) = ofExcept x >>= fun a => ofExcept (f a) := by
  cases x with
  | ok a => exact (pure_bind a fun a => (ofExcept (f a) : Action m β)).symm
  | error e =>
    refine ExceptT.ext (Eq.symm ?_)
    show (pure (Except.error e) >>= _ : StateT Shared m (Except Error β)) = pure (.error e)
    exact pure_bind ..

theorem liftM_eq_ofExcept (x : Except Error α) : (liftM x : Action m α) = ofExcept x := by
  cases x <;> rfl

end Action

namespace Plugin

variable {m : Type → Type} [Monad m]

/-- A plugin where plugins may have effects. -/
def hook (p : Plugin) : Hook (Action m) where
  outbound n := Action.ofExcept (p.outbound n)
  inbound r := Action.ofExcept (p.inbound r)

variable [LawfulMonad m]

theorem ofExcept_sendAll (ps : List Plugin) (n : Node) :
    (Action.ofExcept (sendAll ps n) : Action m Node) = sendAll (ps.map hook) n := by
  induction ps generalizing n with
  | nil => rfl
  | cons p ps ih =>
    simp only [List.map_cons, sendAll, Action.ofExcept_bind, hook]
    refine bind_congr fun a => ?_
    split
    · exact ih a
    · rfl

theorem ofExcept_receiveAll (ps : List Plugin) (r : QueryResult) :
    (Action.ofExcept (receiveAll ps r) : Action m QueryResult) = receiveAll (ps.map hook) r := by
  induction ps generalizing r with
  | nil => rfl
  | cons p ps ih =>
    simp only [List.map_cons, receiveAll, Action.ofExcept_bind, hook]
    exact bind_congr ih

theorem ofExcept_compileWith (ps : List Plugin) (d : Dialect) (n : Node) :
    (Action.ofExcept (compileWith ps d n) : Action m Compiled) =
      compileWith (ps.map hook) d n := by
  simp only [compileWith, Action.ofExcept_bind, ofExcept_sendAll]
  exact bind_congr fun a => (Action.liftM_eq_ofExcept (a.compile d)).symm

/-- Plugins without effects are run as plugins that may have some. -/
theorem run_eq_runHooked (db : Database m) (n : Node) :
    db.run n = db.runHooked (db.plugins.map hook) n := by
  rw [Database.run, Database.runHooked, Database.compile, ofExcept_compileWith]
  exact congrArg _ (funext fun r => ofExcept_receiveAll db.plugins r)

end Plugin

/-! ## Histories -/

/-- What is done for a statement: by a plugin, known by its place in the list, or by the driver. -/
inductive Deed where
  | outbound (place : Nat) (n : Node) (answer : Except Error Node)
  | call (x : Call)
  | inbound (place : Nat) (r : QueryResult) (answer : Except Error QueryResult)

/-- What the outbound plugins do from some place on, and what comes of it.  Each gets what the one
before it made of the statement; the first that fails or changes its kind ends it. -/
inductive Sends (count : Nat) : Nat → Node → List Deed → Except Error Node → Prop
  | through (n : Node) : Sends count count n [] (.ok n)
  | failed {place : Nat} (h : place < count) (n : Node) (e : Error) :
    Sends count place n [.outbound place n (.error e)] (.error e)
  | breach {place : Nat} (h : place < count) {n a : Node} (hkind : a.kind ≠ n.kind) :
    Sends count place n [.outbound place n (.ok a)] (.error (.pluginContract n.kind a.kind))
  | next {place : Nat} (h : place < count) {n a : Node} (hkind : a.kind = n.kind)
    {deeds : List Deed} {r : Except Error Node} (hrest : Sends count (place + 1) a deeds r) :
    Sends count place n (.outbound place n (.ok a) :: deeds) r

/-- What the inbound plugins do from some place on, and what comes of it: the first that fails ends
it. -/
inductive Receives (count : Nat) : Nat → QueryResult → List Deed → Except Error QueryResult → Prop
  | through (r : QueryResult) : Receives count count r [] (.ok r)
  | failed {place : Nat} (h : place < count) (r : QueryResult) (e : Error) :
    Receives count place r [.inbound place r (.error e)] (.error e)
  | next {place : Nat} (h : place < count) {r a : QueryResult} {deeds : List Deed}
    {result : Except Error QueryResult} (hrest : Receives count (place + 1) a deeds result) :
    Receives count place r (.inbound place r (.ok a) :: deeds) result

/-- The connection that a statement gets, with the calls to take it and those to give it back.  One
of the pool is taken and given back; a bound one stays where it is, if it still is there. -/
inductive Leases (s : Shared) : Scope → List Call → Except Error Connection → List Call → Prop
  | pooled {taking : List Call} {c : Connection} (h : Opens s.initialized taking (.ok c)) :
    Leases s .pool taking (.ok c) [.release c]
  | unopened {taking : List Call} {e : Error} (h : Opens s.initialized taking (.error e)) :
    Leases s .pool taking (.error e) []
  | bound {scope : Scope} {i : Nat} {c : Connection}
    (hs : scope = .connection i ∨ scope = .transaction i) (h : s.holds? i = some c) :
    Leases s scope [] (.ok c) []
  | finished {scope : Scope} {i : Nat} (hs : scope = .connection i ∨ scope = .transaction i)
    (h : s.holds? i = none) : Leases s scope [] (.error (.transaction .finished)) []

/-- The histories of a statement, one for each way it can end. -/
inductive Executes (count : Nat) (d : Dialect) (s : Shared) (scope : Scope) (n : Node) :
    List Deed → Except Error QueryResult → Prop
  /-- A plugin fails before there is a connection. -/
  | refused {deeds : List Deed} {e : Error} (h : Sends count 0 n deeds (.error e)) :
    Executes count d s scope n deeds (.error e)
  /-- So does the compiler. -/
  | uncompiled {deeds : List Deed} {a : Node} {e : Error} (h : Sends count 0 n deeds (.ok a))
    (ha : a.compile d = .error e) : Executes count d s scope n deeds (.error e)
  | unleased {deeds : List Deed} {a : Node} {q : Compiled} {taking : List Call} {e : Error}
    (h : Sends count 0 n deeds (.ok a)) (ha : a.compile d = .ok q)
    (hlease : Leases s scope taking (.error e) []) :
    Executes count d s scope n (deeds ++ taking.map .call) (.error e)
  /-- The statement fails; no inbound plugin runs. -/
  | failed {deeds : List Deed} {a : Node} {q : Compiled} {taking giving : List Call}
    {c : Connection} (e : Error) (h : Sends count 0 n deeds (.ok a)) (ha : a.compile d = .ok q)
    (hlease : Leases s scope taking (.ok c) giving) :
    Executes count d s scope n
      (deeds ++ (taking ++ .execute c q (.error e) :: giving).map .call) (.error e)
  /-- The statement succeeds, and the inbound plugins make the result. -/
  | received {deeds changes : List Deed} {a : Node} {q : Compiled} {taking giving : List Call}
    {c : Connection} (r : QueryResult) {result : Except Error QueryResult}
    (h : Sends count 0 n deeds (.ok a)) (ha : a.compile d = .ok q)
    (hlease : Leases s scope taking (.ok c) giving) (hresult : Receives count 0 r changes result) :
    Executes count d s scope n
      (deeds ++ (taking ++ .execute c q (.ok r) :: giving).map .call ++ changes) result

/-! ## Runs with a journal -/

namespace Action

variable {N α β : Type} {s t v : Shared} {before xs ys : List N}

/-- An action goes from a shared state to another and enters some deeds behind those before. -/
def Goes (x : Action (Journal N) α) (s : Shared) (before : List N) (r : Except Error α)
    (t : Shared) (more : List N) : Prop :=
  (x.run.run s).run before = ((r, t), before ++ more)

theorem goes_pure (a : α) : (pure a : Action (Journal N) α).Goes s before (.ok a) s [] := by
  rw [Goes, List.append_nil]
  rfl

theorem goes_throw (e : Error) : (throw e : Action (Journal N) α).Goes s before (.error e) s [] := by
  rw [Goes, List.append_nil]
  rfl

theorem goes_ofExcept (r : Except Error α) :
    (ofExcept r : Action (Journal N) α).Goes s before r s [] := by
  cases r with
  | ok a => exact goes_pure a
  | error e => exact goes_throw e

theorem goes_get : (get : Action (Journal N) Shared).Goes s before (.ok s) s [] := by
  rw [Goes, List.append_nil]
  rfl

theorem goes_modify (f : Shared → Shared) :
    (modify f : Action (Journal N) PUnit).Goes s before (.ok ⟨⟩) (f s) [] := by
  rw [Goes, List.append_nil]
  rfl

/-- A call whose answer is entered. -/
theorem goes_call (s : Shared) (before : List N) (reply : List N → Except Error α)
    (enter : Except Error α → N) :
    (call (.answer reply enter)).Goes s before (reply before) s [enter (reply before)] := rfl

variable {x : Action (Journal N) α} {f : α → Action (Journal N) β} {r : Except Error β}

theorem Goes.bind {a : α} (hx : x.Goes s before (.ok a) t xs)
    (hf : (f a).Goes t (before ++ xs) r v ys) : (x >>= f).Goes s before r v (xs ++ ys) := by
  have hrun : ((x >>= f).run.run s).run before = ((f a).run.run t).run (before ++ xs) := by
    rw [ExceptT.run_bind, StateT.run_bind, StateT.run_bind, hx]
    rfl
  rw [Goes, hrun, hf, List.append_assoc]

theorem Goes.bind_silent {a : α} (hx : x.Goes s before (.ok a) t xs)
    (hf : (f a).Goes t (before ++ xs) r v []) : (x >>= f).Goes s before r v xs := by
  have hbind := hx.bind hf
  rwa [List.append_nil] at hbind

theorem Goes.bind_error {e : Error} (hx : x.Goes s before (.error e) t xs) :
    (x >>= f).Goes s before (.error e) t xs := by
  have hrun : ((x >>= f).run.run s).run before = ((.error e, t), before ++ xs) := by
    rw [ExceptT.run_bind, StateT.run_bind, StateT.run_bind, hx]
    rfl
  exact hrun

theorem Goes.attempt {r : Except Error α} (hx : x.Goes s before r t xs) :
    x.attempt.Goes s before (.ok r) t xs := by
  have hrun : (x.attempt.run.run s).run before =
      let y := (x.run.run s).run before
      ((.ok y.1.1, y.1.2), y.2) := rfl
  rw [Goes, hrun, hx]

end Action

/-! ## Statements with a journal -/

/-- What a plugin does, each time by all that was done before. -/
structure Manner where
  outbound : List Deed → Node → Except Error Node
  inbound : List Deed → QueryResult → Except Error QueryResult

namespace Manner

/-- The plugin of this manner, at some place of a list. -/
def hook (p : Manner) (place : Nat) : Hook (Action (Journal Deed)) where
  outbound n := .call (.answer (fun deeds => p.outbound deeds n) (.outbound place n))
  inbound r := .call (.answer (fun deeds => p.inbound deeds r) (.inbound place r))

def hooksFrom : Nat → List Manner → List (Hook (Action (Journal Deed)))
  | _, [] => []
  | place, p :: ps => p.hook place :: hooksFrom (place + 1) ps

variable {s : Shared}

/-- The outbound plugins of a list, whatever was done before. -/
theorem sends_sendAll (ps : List Manner) (place : Nat) (n : Node) (before : List Deed) :
    ∃ deeds r, Sends (place + ps.length) place n deeds r ∧
      (Plugin.sendAll (hooksFrom place ps) n).Goes s before r s deeds := by
  induction ps generalizing place n before with
  | nil => exact ⟨[], .ok n, .through n, Action.goes_pure n⟩
  | cons p ps ih =>
    have hplace : place < place + (p :: ps).length := by simp
    have hcall := Action.goes_call s before (fun deeds => p.outbound deeds n) (.outbound place n)
    cases hanswer : p.outbound before n with
    | error e =>
      simp only [hanswer] at hcall
      exact ⟨_, _, .failed hplace n e, hcall.bind_error⟩
    | ok a =>
      simp only [hanswer] at hcall
      by_cases hkind : a.kind = n.kind
      · obtain ⟨deeds, r, hrest, hgoes⟩ :=
          ih (place + 1) a (before ++ [.outbound place n (.ok a)])
        rw [show place + 1 + ps.length = place + (p :: ps).length by simp; omega] at hrest
        refine ⟨_, r, .next hplace hkind hrest, hcall.bind ?_⟩
        rwa [if_pos hkind]
      · refine ⟨_, _, .breach hplace hkind, hcall.bind_silent ?_⟩
        rw [if_neg hkind]
        exact Action.goes_throw _

theorem receives_receiveAll (ps : List Manner) (place : Nat) (r : QueryResult)
    (before : List Deed) :
    ∃ deeds result, Receives (place + ps.length) place r deeds result ∧
      (Plugin.receiveAll (hooksFrom place ps) r).Goes s before result s deeds := by
  induction ps generalizing place r before with
  | nil => exact ⟨[], .ok r, .through r, Action.goes_pure r⟩
  | cons p ps ih =>
    have hplace : place < place + (p :: ps).length := by simp
    have hcall := Action.goes_call s before (fun deeds => p.inbound deeds r) (.inbound place r)
    cases hanswer : p.inbound before r with
    | error e =>
      simp only [hanswer] at hcall
      exact ⟨_, _, .failed hplace r e, hcall.bind_error⟩
    | ok a =>
      simp only [hanswer] at hcall
      obtain ⟨deeds, result, hrest, hgoes⟩ :=
        ih (place + 1) a (before ++ [.inbound place r (.ok a)])
      rw [show place + 1 + ps.length = place + (p :: ps).length by simp; omega] at hrest
      exact ⟨_, result, .next hplace hrest, hcall.bind hgoes⟩

end Manner

/-- Who runs statements, with plugins in a list.  What is logged is not entered. -/
structure Runner where
  conduct : Conduct Deed
  manners : List Manner := []
  levels : Option (List LogLevel) := none

namespace Runner

variable (u : Runner)

def driver : Driver (Journal Deed) := u.conduct.driver .call

def hooks : List (Hook (Action (Journal Deed))) := Manner.hooksFrom 0 u.manners

def handle (scope : Scope) : Database (Journal Deed) where
  dialect := u.conduct.dialect
  driver := some u.driver
  log := u.levels.map fun levels => ⟨levels, fun _ => pure ()⟩
  scope := scope

end Runner

namespace Database

open Action

variable (u : Runner) (scope : Scope) {s t : Shared} {before : List Deed}

theorem goes_execute (s : Shared) (before : List Deed) (c : Connection) (q : Compiled) :
    ∃ a, (Action.call ((u.handle scope).executor u.driver c q)).Goes s before a s
      [.call (.execute c q a)] := by
  refine ⟨u.conduct.execute before c q, ?_⟩
  have hrecord : ∀ r : Except Error QueryResult,
      Log.record (u.handle scope).log q r = (pure () : Journal Deed Unit) := fun r => by
    rw [Runner.handle]
    cases u.levels with
    | none => rfl
    | some levels => exact ite_self _
  have hexecutor : (u.handle scope).executor u.driver c q = u.driver.execute c q := by
    simp only [executor, hrecord]
    rfl
  rw [hexecutor]
  rfl

theorem goes_init (s : Shared) (before : List Deed) :
    (Action.call u.driver.init).Goes s before (u.conduct.init before) s
      [.call (.init (u.conduct.init before))] := rfl

theorem goes_driverAcquire (s : Shared) (before : List Deed) :
    (Action.call u.driver.acquire).Goes s before (u.conduct.acquire before) s
      [.call (.acquire (u.conduct.acquire before))] := rfl

theorem goes_giveBack (c : Connection) (s : Shared) (before : List Deed) :
    (Action.tell (u.driver.release c)).Goes s before (.ok ⟨⟩) s [.call (.release c)] := rfl

/-- Taking a connection of the pool initializes the driver first, if need be. -/
theorem goes_acquire (s : Shared) (before : List Deed) :
    ∃ calls a t, Opens s.initialized calls a ∧ t.bindings = s.bindings ∧
      (acquire u.driver).Goes s before a t (calls.map .call) := by
  cases hs : s.initialized with
  | true =>
    have hprepare : (prepare u.driver).Goes s before (.ok ⟨⟩) s ([] ++ []) :=
      goes_get.bind (by rw [hs]; exact goes_pure _)
    exact ⟨_, _, s, .ready _, rfl, hprepare.bind (goes_driverAcquire u s _)⟩
  | false =>
    have hprepare : ∀ {r t xs}, (Action.call u.driver.init >>= fun _ =>
        (modify fun s => { s with initialized := true } : Action (Journal Deed) PUnit)).Goes s
          before r t xs → (prepare u.driver).Goes s before r t xs := by
      intro r t xs h
      rw [← List.nil_append xs]
      refine goes_get.bind ?_
      rw [hs, List.append_nil]
      exact h
    have hinit := goes_init u s before
    cases hanswer : u.conduct.init before with
    | error e =>
      rw [hanswer] at hinit
      exact ⟨_, _, s, .uninitialized e, rfl, (hprepare hinit.bind_error).bind_error⟩
    | ok a =>
      rw [hanswer] at hinit
      exact ⟨_, _, { s with initialized := true }, .fresh _, rfl,
        (hprepare (hinit.bind (goes_modify _))).bind (goes_driverAcquire u _ _)⟩

section Bound

variable {i : Nat}

theorem goes_current {c : Connection} (h : s.holds? i = some c) :
    (Binding.current i : Action (Journal Deed) Connection).Goes s before (.ok c) s [] := by
  have hget : (Binding.get? i : Action (Journal Deed) (Option Binding)).Goes s before
      (.ok s.bindings[i]?) s ([] ++ []) := goes_get.bind (goes_pure _)
  rw [Shared.holds?] at h
  refine hget.bind_silent ?_
  rw [h]
  exact goes_pure c

theorem goes_current_none (h : s.holds? i = none) :
    (Binding.current i : Action (Journal Deed) Connection).Goes s before
      (.error (.transaction .finished)) s [] := by
  have hget : (Binding.get? i : Action (Journal Deed) (Option Binding)).Goes s before
      (.ok s.bindings[i]?) s ([] ++ []) := goes_get.bind (goes_pure _)
  rw [Shared.holds?] at h
  refine hget.bind_silent ?_
  rw [h]
  exact goes_throw _

end Bound

/-- A statement on the connection it is leased, if it gets one. -/
theorem goes_withConnection (q : Compiled) (s : Shared) (before : List Deed) :
    ∃ taking t, t.bindings = s.bindings ∧
      ((∃ e, Leases s scope taking (.error e) [] ∧ ((u.handle scope).withConnection fun d c =>
          Action.call ((u.handle scope).executor d c q)).Goes s before (.error e) t
            (taking.map .call)) ∨
        ∃ c giving a, Leases s scope taking (.ok c) giving ∧
          ((u.handle scope).withConnection fun d c =>
            Action.call ((u.handle scope).executor d c q)).Goes s before a t
              ((taking ++ .execute c q a :: giving).map .call)) := by
  have hbound : ∀ i, (scope = .connection i ∨ scope = .transaction i) →
      ((u.handle scope).withConnection fun d c =>
        Action.call ((u.handle scope).executor d c q)) = (Binding.current i >>= fun c =>
          Action.call ((u.handle scope).executor u.driver c q)) := by
    rintro i (rfl | rfl) <;> rfl
  by_cases hpool : scope = .pool
  · subst hpool
    obtain ⟨calls, lease, t, hopens, hbindings, hacquire⟩ := goes_acquire u s before
    refine ⟨calls, t, hbindings, ?_⟩
    cases lease with
    | error e => exact .inl ⟨e, .unopened hopens, hacquire.bind_error⟩
    | ok c =>
      obtain ⟨a, hexecute⟩ :=
        goes_execute u .pool t (before ++ calls.map .call) c q
      refine .inr ⟨c, _, a, .pooled hopens, ?_⟩
      rw [List.map_append]
      exact hacquire.bind (hexecute.attempt.bind ((goes_giveBack u c t _).bind (goes_ofExcept a)))
  · obtain ⟨i, hs⟩ : ∃ i, scope = .connection i ∨ scope = .transaction i := by
      cases scope with
      | pool => exact absurd rfl hpool
      | connection i => exact ⟨i, .inl rfl⟩
      | transaction i => exact ⟨i, .inr rfl⟩
    refine ⟨[], s, rfl, ?_⟩
    rw [hbound i hs]
    cases hheld : s.holds? i with
    | none => exact .inl ⟨_, .finished hs hheld, (goes_current_none hheld).bind_error⟩
    | some c =>
      obtain ⟨a, hexecute⟩ := goes_execute u scope s (before ++ []) c q
      exact .inr ⟨c, [], a, .bound hs hheld, (goes_current hheld).bind hexecute⟩

/-- Plugins without effects are run as plugins that may have some.  And whatever plugins and driver
answer, running a statement is one of its histories: the outbound plugins run in the order of the
list before a connection is taken, the statement is sent once at most, the connection is given back
before the inbound plugins run in the same order, and what fails first is the result. -/
theorem executes_runHooked :
    (∀ {m : Type → Type} [Monad m] [LawfulMonad m] (db : Database m) (n : Node),
      db.run n = db.runHooked (db.plugins.map Plugin.hook) n) ∧
    ∀ (u : Runner) (scope : Scope) (n : Node) (s : Shared) (before : List Deed),
      ∃ deeds r t, Executes u.manners.length u.conduct.dialect s scope n deeds r ∧
        t.bindings = s.bindings ∧
        ((u.handle scope).runHooked u.hooks n).Goes s before r t deeds := by
  refine ⟨Plugin.run_eq_runHooked, fun u scope n s before => ?_⟩
  obtain ⟨deeds, sent, hsends, hsendAll⟩ :=
    Manner.sends_sendAll (s := s) u.manners 0 n before
  rw [Nat.zero_add] at hsends
  cases sent with
  | error e => exact ⟨deeds, _, s, .refused hsends, rfl, hsendAll.bind_error.bind_error⟩
  | ok a =>
    have hcompile : (Plugin.compileWith u.hooks u.conduct.dialect n).Goes s before
        (a.compile u.conduct.dialect) s deeds := by
      rw [← List.append_nil deeds]
      refine hsendAll.bind ?_
      rw [Action.liftM_eq_ofExcept]
      exact goes_ofExcept _
    cases ha : a.compile u.conduct.dialect with
    | error e =>
      rw [ha] at hcompile
      exact ⟨deeds, _, s, .uncompiled hsends ha, rfl, hcompile.bind_error⟩
    | ok q =>
      rw [ha] at hcompile
      obtain ⟨taking, t, hbindings, ⟨e, hlease, huse⟩ | ⟨c, giving, answer, hlease, huse⟩⟩ :=
        goes_withConnection u scope q s (before ++ deeds)
      · exact ⟨_, _, t, .unleased hsends ha hlease, hbindings, hcompile.bind huse.bind_error⟩
      · cases answer with
        | error e =>
          exact ⟨_, _, t, .failed e hsends ha hlease, hbindings, hcompile.bind huse.bind_error⟩
        | ok r =>
          obtain ⟨changes, result, hreceives, hreceiveAll⟩ := Manner.receives_receiveAll (s := t)
            u.manners 0 r (before ++ deeds ++ (taking ++ .execute c q (.ok r) :: giving).map .call)
          rw [Nat.zero_add] at hreceives
          refine ⟨_, _, t, .received r hsends ha hlease hreceives, hbindings, ?_⟩
          rw [List.append_assoc]
          exact hcompile.bind (huse.bind hreceiveAll)

end Database

/-- A driver that grants everything, and a plugin that changes nothing. -/
def Runner.granting : Runner where
  conduct := {
    dialect := .postgres
    init _ := .ok ()
    acquire _ := .ok ⟨0⟩
    execute _ _ _ := .ok {}
    stream _ _ _ _ := []
    destroy _ := .ok () }
  manners := [⟨fun _ n => .ok n, fun _ r => .ok r⟩]

theorem Runner.executes_granting :
    let n : Node := .raw "select 1"
    let db := Runner.granting.handle .pool
    db.run n = db.runHooked [] n ∧
      Executes 1 .postgres {} .pool n
        [.outbound 0 n (.ok n), .call (.init (.ok ())), .call (.acquire (.ok ⟨0⟩)),
          .call (.execute ⟨0⟩ (.raw "select 1") (.ok {})), .call (.release ⟨0⟩),
          .inbound 0 {} (.ok {})] (.ok {}) := by
  intro n db
  obtain ⟨hrun, hexecutes⟩ := Database.executes_runHooked
  obtain ⟨deeds, r, t, h, -, hgoes⟩ := hexecutes .granting .pool n {} []
  have hjournal : ((db.runHooked Runner.granting.hooks n).run.run {}).run [] =
      ((.ok {}, { initialized := true }),
        [.outbound 0 n (.ok n), .call (.init (.ok ())), .call (.acquire (.ok ⟨0⟩)),
          .call (.execute ⟨0⟩ (.raw "select 1") (.ok {})), .call (.release ⟨0⟩),
          .inbound 0 {} (.ok {})]) := rfl
  obtain ⟨hresult, hdeeds⟩ := Prod.mk.inj (hjournal.symm.trans hgoes)
  obtain ⟨rfl, -⟩ := Prod.mk.inj hresult
  rw [List.nil_append] at hdeeds
  subst hdeeds
  exact ⟨hrun db n, h⟩

end SqlTree
