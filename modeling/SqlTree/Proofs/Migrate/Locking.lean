import SqlTree.Proofs.Migrate.Batch
import SqlTree.Proofs.Migrate.Statements

/-!
# The lock of a migration run

A run asks for the lock before anything else of its batch, goes on only if it is granted, and gives
it back after the batch whatever the batch came to (`Migrator.Locked`).
-/

namespace SqlTree

open Action (does_bind)

namespace Dialect

/-- Whether an answer to the lock statement grants the lock. -/
def verdict (d : Dialect) : Except Error QueryResult → Except Error Unit
  | .error e => .error e
  | .ok r => if d.asksForLock && !Migrate.grants r then .error (.migration .lockNotAcquired)
      else .ok ()

/-- Asking for the lock on a connection, where there is one. -/
inductive Asks (d : Dialect) (c : Connection) : List Act → Except Error Unit → Prop
  | unlocked (h : d.lockStatement? = none) : Asks d c [] (.ok ())
  | asked {sql : String} (h : d.lockStatement? = some sql) (a : Except Error QueryResult) :
    Asks d c [.call (.execute c (.raw sql) a)] (d.verdict a)

/-- Giving the lock back on a connection, where it does not end with the transaction. -/
inductive GivesBack (d : Dialect) (c : Connection) : List Act → Except Error Unit → Prop
  | unlocked (h : d.unlockStatement? = none) : GivesBack d c [] (.ok ())
  | given {sql : String} (h : d.unlockStatement? = some sql) (a : Except Error QueryResult) :
    GivesBack d c [.call (.execute c (.raw sql) a)] (a.map fun _ => ())

/-- A lock in a transaction ends with it. -/
theorem unlockStatement?_of_undoesDefinitions {d : Dialect} (h : d.undoesDefinitions = true) :
    d.unlockStatement? = none := by
  cases d with
  | mysql => cases h
  | _ => rfl

variable (u : Party) {scope : Scope} {c : Connection} {acts : List Act} {r : Except Error Unit}

theorem acquireLock_iff :
    u.dialect.acquireLock ((u.handle scope).executor u.driver c) acts r ↔
      u.dialect.Asks c acts r := by
  have hanswered : ∀ (a : Except Error QueryResult) (after : List Act),
      (match a with
        | .error e => (pure (.error e) : Paths (Except Error Unit))
        | .ok b => if u.dialect.asksForLock && !Migrate.grants b
            then pure (.error (.migration .lockNotAcquired)) else pure (.ok ())) after r ↔
        after = [] ∧ r = u.dialect.verdict a := by
    intro a after
    cases a with
    | error e => exact Iff.rfl
    | ok b =>
      rw [verdict]
      dsimp only
      split <;> exact Iff.rfl
  rw [acquireLock]
  constructor
  · intro h
    cases hlock : u.dialect.lockStatement? with
    | none =>
      rw [hlock] at h
      obtain ⟨rfl, rfl⟩ := h
      exact .unlocked hlock
    | some sql =>
      rw [hlock] at h
      obtain ⟨before, a, after, rfl, ha, hend⟩ := h
      obtain rfl := (Database.executor_iff u scope c _ _ _).mp ha
      obtain ⟨rfl, rfl⟩ := (hanswered a after).mp hend
      exact .asked hlock a
  · intro h
    cases h with
    | unlocked hlock =>
      rw [hlock]
      exact ⟨rfl, rfl⟩
    | asked hlock a =>
      rw [hlock]
      exact ⟨_, a, [], rfl, (Database.executor_iff u scope c _ _ _).mpr rfl,
        (hanswered a []).mpr ⟨rfl, rfl⟩⟩

theorem releaseLock_iff :
    u.dialect.releaseLock ((u.handle scope).executor u.driver c) acts r ↔
      u.dialect.GivesBack c acts r := by
  rw [releaseLock]
  constructor
  · intro h
    cases hunlock : u.dialect.unlockStatement? with
    | none =>
      rw [hunlock] at h
      obtain ⟨rfl, rfl⟩ := h
      exact .unlocked hunlock
    | some sql =>
      rw [hunlock] at h
      obtain ⟨before, a, after, rfl, ha, hend⟩ := h
      obtain rfl := (Database.executor_iff u scope c _ _ _).mp ha
      suffices after = [] ∧ r = a.map fun _ => () by
        obtain ⟨rfl, rfl⟩ := this
        exact .given hunlock a
      cases a with
      | error e => exact hend
      | ok a => exact hend
  · intro h
    cases h with
    | unlocked hunlock =>
      rw [hunlock]
      exact ⟨rfl, rfl⟩
    | given hunlock a =>
      rw [hunlock]
      refine ⟨_, a, [], rfl, (Database.executor_iff u scope c _ _ _).mpr rfl, ?_⟩
      cases a <;> exact ⟨rfl, rfl⟩

end Dialect

namespace Migrate

def error? : Except Error Unit → Option Error
  | .ok _ => none
  | .error e => some e

/-- Why a batch failed, if it did. -/
def fault? : Except Error Batch → Option Error
  | .error e => some e
  | .ok b => b.error

/-- What a batch leaves for its transaction to settle. -/
def unsettled (outcome : Except Error Batch) : Except Error Unit :=
  match fault? outcome with
  | some e => .error e
  | none => .ok ()

theorem fault?_of_unsettled {outcome : Except Error Batch} {a : Unit}
    (h : unsettled outcome = .ok a) : fault? outcome = none := by
  cases hfault : fault? outcome with
  | none => rfl
  | some e =>
    rw [unsettled, hfault] at h
    cases h

/-- What is known of the migrations of a batch; without a plan there are none. -/
def reports : Except Error Batch → List Report
  | .error _ => []
  | .ok b => b.reports

/-- A batch with the answer to giving the lock back, whose error counts if there is no other. -/
def released (outcome : Except Error Batch) (answer : Except Error Unit) : Except Error Batch := do
  let b ← outcome
  match b.error, answer with
  | none, .error e => return { b with error := some e }
  | _, _ => return b

/-- The answer of a run: a failure is part of it. -/
def told : Except Error Batch → Batch
  | .ok b => b
  | .error e => { error := some e }

theorem told_released (outcome : Except Error Batch) (answer : Except Error Unit) :
    told (released outcome answer) = ⟨reports outcome, (fault? outcome).or (error? answer)⟩ := by
  cases outcome with
  | error e => rfl
  | ok b =>
    obtain ⟨reports, error⟩ := b
    cases error <;> cases answer <;> rfl

end Migrate

namespace Migrator

open Migrate

/-- The acts of a run once its tables exist, with its answer. -/
inductive Locked (u : Party) (registered : List (String × Migration Paths)) (target : Target)
    (initialized : Bool) : List Act → Batch → Prop
  /-- There is no connection. -/
  | unconnected {calls : List Call} {e : Error} (hopens : Opens initialized calls (.error e)) :
    Locked u registered target initialized (calls.map .call) { error := some e }
  /-- The transaction cannot begin. -/
  | unbegun (hd : u.dialect.undoesDefinitions = true) {calls : List Call} {c : Connection}
    {e : Error} (hopens : Opens initialized calls (.ok c)) :
    Locked u registered target initialized
      (calls.map .call ++ [.call (.begin c {} (.error e)), .call (.release c)])
      { error := some e }
  /-- The lock is not granted in the transaction, which is undone. -/
  | refused (hd : u.dialect.undoesDefinitions = true) {calls : List Call} {c : Connection}
    {asking : List Act} {e : Error} (back : Except Error Unit)
    (hopens : Opens initialized calls (.ok c)) (hasks : u.dialect.Asks c asking (.error e)) :
    Locked u registered target initialized
      (calls.map .call ++ .call (.begin c {} (.ok ())) ::
        (asking ++ [.call (.rollback c back), .call (.release c)]))
      { error := some (e.undone back) }
  /-- The transaction holds the lock, and settles what its batch came to. -/
  | settled (hd : u.dialect.undoesDefinitions = true) {calls : List Call} {c : Connection}
    {asking : List Act} {i : Nat} {v w : Shared} {batch : List Act} {outcome : Except Error Batch}
    {ending : List Call} {ended : Except Error Unit} (hopens : Opens initialized calls (.ok c))
    (hasks : u.dialect.Asks c asking (.ok ())) (hholds : v.holds? i = some c)
    (hbatch : ((u.migrator registered).batch (u.handle (.transaction i)) target).Does
      v batch outcome w)
    (hsettles : Settles c (unsettled outcome) ending ended) :
    Locked u registered target initialized
      (calls.map .call ++ .call (.begin c {} (.ok ())) ::
        (asking ++ (batch ++ (ending.map .call ++ [.call (.release c)]))))
      ⟨reports outcome, error? ended⟩
  /-- The lock is not granted on the connection. -/
  | denied (hd : u.dialect.undoesDefinitions = false) {calls : List Call} {c : Connection}
    {asking : List Act} {e : Error} (hopens : Opens initialized calls (.ok c))
    (hasks : u.dialect.Asks c asking (.error e)) :
    Locked u registered target initialized
      (calls.map .call ++ (asking ++ [.call (.release c)])) { error := some e }
  /-- The connection holds the lock until it is given back behind the batch. -/
  | unlocked (hd : u.dialect.undoesDefinitions = false) {calls : List Call} {c : Connection}
    {asking : List Act} {i : Nat} {v w : Shared} {batch : List Act} {outcome : Except Error Batch}
    {giving : List Act} {given : Except Error Unit} (hopens : Opens initialized calls (.ok c))
    (hasks : u.dialect.Asks c asking (.ok ())) (hholds : v.holds? i = some c)
    (hbatch : ((u.migrator registered).batch (u.handle (.connection i)) target).Does
      v batch outcome w)
    (hgives : u.dialect.GivesBack c giving given) :
    Locked u registered target initialized
      (calls.map .call ++ (asking ++ (batch ++ (giving ++ [.call (.release c)]))))
      ⟨reports outcome, (fault? outcome).or (error? given)⟩

variable (u : Party) {registered : List (String × Migration Paths)} {s t : Shared} {acts : List Act}

/-- A body under the lock. -/
theorem does_locked {scope : Scope} {i : Nat} {c : Connection}
    (hs : (u.handle scope).binding? = some i) (h : s.holds? i = some c)
    {body : Action Paths Batch}
    (hbody : ∀ {acts r t}, body.Does s acts r t → t.holds? i = some c) {r : Except Error Batch}
    (hdoes : (locked (u.handle scope) body).Does s acts r t) :
    t.holds? i = some c ∧ ∃ asking granted, u.dialect.Asks c asking granted ∧
      ((∃ e, granted = .error e ∧ acts = asking ∧ r = .error e) ∨
        granted = .ok () ∧ ∃ batch outcome v giving given, body.Does s batch outcome v ∧
          u.dialect.GivesBack c giving given ∧ acts = asking ++ (batch ++ giving) ∧
          r = released outcome given) := by
  obtain ⟨e, rfl, hask⟩ | ⟨⟨⟩, v, asking, after, rfl, hask, hrest⟩ := does_bind.mp hdoes
  · obtain ⟨hlock, rfl⟩ :=
      (Action.does_call _).mp ((Database.does_withConnection u hs h).mp hask)
    exact ⟨h, acts, _, (Dialect.acquireLock_iff u).mp hlock, .inl ⟨e, rfl, rfl, rfl⟩⟩
  · obtain ⟨hlock, rfl⟩ :=
      (Action.does_call _).mp ((Database.does_withConnection u hs h).mp hask)
    obtain ⟨outcome, v', batch, after, rfl, hbatch, hrest⟩ := Action.does_bind_attempt.mp hrest
    have hv := hbody hbatch
    obtain ⟨e, -, hgive⟩ | ⟨given, v, giving, after, rfl, hgive, hend⟩ := does_bind.mp hrest
    · obtain ⟨_, he, -⟩ :=
        (Action.does_tell _).mp ((Database.does_withConnection u hs hv).mp hgive)
      cases he
    · obtain ⟨_, he, hunlock, rfl⟩ :=
        (Action.does_tell _).mp ((Database.does_withConnection u hs hv).mp hgive)
      cases he
      suffices hreleased : after = [] ∧ r = released outcome given ∧ t = v by
        obtain ⟨rfl, rfl, rfl⟩ := hreleased
        exact ⟨hv, asking, _, (Dialect.acquireLock_iff u).mp hlock, .inr ⟨rfl, batch, outcome, _,
          giving, given, hbatch, (Dialect.releaseLock_iff u).mp hunlock, by simp, rfl⟩⟩
      rw [Action.does_bind_ofExcept] at hend
      cases outcome with
      | error e => exact hend
      | ok b =>
        obtain ⟨reports, error⟩ := b
        cases error <;> cases given <;> exact (Action.does_pure _).mp hend

/-- Where there is nothing to give back, a batch comes to what it came to. -/
theorem released_of_givesBack {c : Connection} {giving : List Act} {given : Except Error Unit}
    (hd : u.dialect.undoesDefinitions = true) (h : u.dialect.GivesBack c giving given)
    (outcome : Except Error Batch) : giving = [] ∧ released outcome given = outcome := by
  cases h with
  | unlocked =>
    refine ⟨rfl, ?_⟩
    cases outcome with
    | error e => rfl
    | ok b =>
      obtain ⟨reports, error⟩ := b
      cases error <;> rfl
  | given hsql =>
    rw [Dialect.unlockStatement?_of_undoesDefinitions hd] at hsql
    cases hsql

section Replays

open Action Database

theorem replays_perform_pool {n : Except Error Node} {q : Compiled} {c : Connection}
    (hn : n.bind u.compile = .ok q) (hs : s.initialized = true) (a : Except Error QueryResult)
    {goOn : Except Error QueryResult → Shared → List Act → Prop} :
    (perform (u.handle .pool) n).Replays s
      (.call (.acquire (.ok c)) :: .call (.execute c q a) :: .call (.release c) :: acts) goOn ↔
        goOn (u.receive a) s acts := by
  cases n with
  | error e => cases hn
  | ok n =>
    rw [perform, replays_bind, replays_ofExcept]
    exact replays_run_pool u a hn hs

/-- A body under a lock that is granted. -/
theorem replays_locked {scope : Scope} {i : Nat} {c : Connection} {sql sql' : String}
    (hlock : u.dialect.lockStatement? = some sql)
    (hunlock : u.dialect.unlockStatement? = some sql')
    (hs : (u.handle scope).binding? = some i) (h : s.holds? i = some c) {body : Action Paths Batch}
    {batch : List Act} {outcome : Except Error Batch} (hbody : body.Does s batch outcome t)
    (ht : t.holds? i = some c) {a : Except Error QueryResult} (ha : u.dialect.verdict a = .ok ())
    (a' : Except Error QueryResult) {goOn : Except Error Batch → Shared → List Act → Prop}
    (hgo : goOn (released outcome (a'.map fun _ => ())) t acts) :
    (locked (u.handle scope) body).Replays s (.call (.execute c (.raw sql) a) ::
      (batch ++ .call (.execute c (.raw sql') a') :: acts)) goOn := by
  have hasks : u.dialect.Asks c [.call (.execute c (.raw sql) a)] (.ok ()) := by
    rw [← ha]
    exact .asked hlock a
  have hlocks : (Action.call (u.dialect.acquireLock ((u.handle scope).executor u.driver c))).Does s
      [.call (.execute c (.raw sql) a)] (.ok ()) s :=
    (does_call _).mpr ⟨(Dialect.acquireLock_iff u).mpr hasks, rfl⟩
  have hgives : (Action.tell (u.dialect.releaseLock ((u.handle scope).executor u.driver c))).Does t
      [.call (.execute c (.raw sql') a')] (.ok (a'.map fun _ => ())) t :=
    (does_tell _).mpr ⟨_, rfl, (Dialect.releaseLock_iff u).mpr (.given hunlock a'), rfl⟩
  rw [locked, replays_bind, replays_withConnection u hs h]
  refine Does.replays [_] hlocks ?_
  rw [replays_bind, replays_attempt]
  refine hbody.replays _ ?_
  dsimp only
  rw [replays_bind, replays_withConnection u hs ht]
  refine Does.replays [_] hgives ?_
  dsimp only
  rw [replays_bind, replays_ofExcept]
  cases outcome with
  | error e => exact hgo
  | ok b =>
    obtain ⟨reports, error⟩ := b
    cases error <;> cases a' <;> exact (replays_pure _).mpr hgo

/-- A run behind a batch, with all tables in their place and a lock that is granted. -/
theorem does_run {c : Connection} {sql sql' : String} {q₁ q₂ q₃ : Compiled} {target : Target}
    (hd : u.dialect.undoesDefinitions = false) (hlock : u.dialect.lockStatement? = some sql)
    (hunlock : u.dialect.unlockStatement? = some sql')
    (h₁ : createTable.bind u.compile = .ok q₁) (h₂ : createLockTable.bind u.compile = .ok q₂)
    (h₃ : selectLockRow.bind u.compile = .ok q₃)
    {a₁ a₂ a₃ a : Except Error QueryResult} {r₁ r₂ r₃ : QueryResult}
    (ha₁ : u.receive a₁ = .ok r₁) (ha₂ : u.receive a₂ = .ok r₂) (ha₃ : u.receive a₃ = .ok r₃)
    (hr₃ : r₃.rows.isEmpty = false) (ha : u.dialect.verdict a = .ok ())
    (a' : Except Error QueryResult) (hs : s.initialized = true) {i : Nat}
    (hi : s.bindings.length = i) {batch : List Act} {outcome : Except Error Batch}
    (ht : t.holds? i = some c)
    (hbatch : ((u.migrator registered).batch (u.handle (.connection i)) target).Does
      (s.bind ⟨some c, false⟩) batch outcome t) :
    ((u.migrator registered).run target).Does s
      (.call (.acquire (.ok c)) :: .call (.execute c q₁ a₁) :: .call (.release c) ::
        .call (.acquire (.ok c)) :: .call (.execute c q₂ a₂) :: .call (.release c) ::
        .call (.acquire (.ok c)) :: .call (.execute c q₃ a₃) :: .call (.release c) ::
        .call (.acquire (.ok c)) :: .call (.execute c (.raw sql) a) ::
          (batch ++ [.call (.execute c (.raw sql') a'), .call (.release c)]))
      (.ok (told (released outcome (a'.map fun _ => ()))))
      (t.change i fun _ => ⟨none, false⟩) := by
  subst hi
  apply Replays.does
  simp only [run, ensureTables, u.database_migrator, replays_bind, replays_attempt]
  rw [replays_perform_pool u h₁ hs, ha₁]
  dsimp only
  rw [replays_perform_pool u h₂ hs, ha₂]
  dsimp only
  rw [replays_perform_pool u h₃ hs, ha₃]
  dsimp only
  rw [hr₃]
  simp only [Bool.false_eq_true, if_false, replays_pure]
  rw [lockedBatch, u.database_migrator, if_neg (by rw [Party.handle, hd]; exact Bool.false_ne_true),
    replays_connection u hs]
  refine replays_locked u hlock hunlock rfl (Shared.holds?_bind s c false) hbatch ht ha a' ?_
  rw [replays_bind, replays_release u ht]
  dsimp only
  rw [replays_ofExcept]
  cases released outcome (a'.map fun _ => ()) with
  | error e => exact (replays_pure _).mpr ⟨rfl, rfl, rfl⟩
  | ok b => exact (replays_pure _).mpr ⟨rfl, rfl, rfl⟩

/-- A run that executes the only migration, on a database that was migrated before it. -/
theorem exists_does_run_mysql (name time : String) (migration : Migration Paths) {c : Connection}
    (hs : s.initialized = true) {i : Nat} (hi : s.bindings.length = i) {ran : List Act}
    (hran : (migration.up (({ dialect := .mysql } : Party).handle (.connection i))).Does
      (s.bind ⟨some c, false⟩) ran (.ok ()) t) (ht : t.holds? i = some c) :
    ∃ q₁ q₂ q₃ q₄ q₅, createTable.bind (Node.compile .mysql) = .ok q₁ ∧
      createLockTable.bind (Node.compile .mysql) = .ok q₂ ∧
      selectLockRow.bind (Node.compile .mysql) = .ok q₃ ∧
      selectExecuted.bind (Node.compile .mysql) = .ok q₄ ∧
      (record name time).bind (Node.compile .mysql) = .ok q₅ ∧
      ((({ dialect := .mysql } : Party).migrator [(name, migration)]).run .latest).Does s
        (.call (.acquire (.ok c)) :: .call (.execute c q₁ (.ok {})) :: .call (.release c) ::
          .call (.acquire (.ok c)) :: .call (.execute c q₂ (.ok {})) :: .call (.release c) ::
          .call (.acquire (.ok c)) :: .call (.execute c q₃ (.ok { rows := [[]] })) ::
          .call (.release c) :: .call (.acquire (.ok c)) ::
          .call (.execute c (.raw (Dialect.mysql.lockStatement?.getD ""))
            (.ok { rows := [[("acquired", .int 1)]] })) ::
          (.call (.execute c q₄ (.ok {})) :: (ran ++ [.call (.execute c q₅ (.ok {}))]) ++
            [.call (.execute c (.raw (Dialect.mysql.unlockStatement?.getD "")) (.ok {})),
              .call (.release c)]))
        (.ok ⟨[⟨name, .up, .success⟩], none⟩) (t.change i fun _ => ⟨none, false⟩) := by
  obtain ⟨q₁, h₁⟩ := exists_compiled .mysql (n := createTable) (by simp)
  obtain ⟨q₂, h₂⟩ := exists_compiled .mysql (n := createLockTable) (by simp)
  obtain ⟨q₃, h₃⟩ := exists_compiled .mysql (n := selectLockRow) (by simp)
  obtain ⟨q₄, h₄⟩ := exists_compiled .mysql (n := selectExecuted) (by simp)
  obtain ⟨q₅, h₅⟩ : ∃ q, (record name time).bind (Node.compile .mysql) = .ok q :=
    ⟨_, compile_record .mysql name time⟩
  refine ⟨q₁, q₂, q₃, q₄, q₅, h₁, h₂, h₃, h₄, h₅, ?_⟩
  generalize hu : ({ dialect := .mysql } : Party) = u at hran ⊢
  have hd : u.dialect = .mysql := by rw [← hu]
  have hcompile : u.compile = Node.compile .mysql := by
    rw [← hu]
    rfl
  have hreceive : ∀ r, u.receive (.ok r) = .ok r := by
    rw [← hu]
    exact fun r => rfl
  rw [← hcompile] at h₁ h₂ h₃ h₄ h₅
  have hplan : planned (u.migrator [(name, migration)]).names .latest (u.receive (.ok {})) =
      .ok ⟨.up, [name]⟩ := by
    rw [hreceive]
    rfl
  have hlookup : (u.migrator [(name, migration)]).migrations.lookup name = some migration :=
    List.lookup_cons_self
  have hholds : (s.bind ⟨some c, false⟩).holds? i = some c := hi ▸ Shared.holds?_bind s c false
  have hbatch : ((u.migrator [(name, migration)]).batch (u.handle (.connection i)) .latest).Does
      (s.bind ⟨some c, false⟩)
      (.call (.execute c q₄ (.ok {})) :: (ran ++ [.call (.execute c q₅ (.ok {}))]))
      (.ok ⟨[⟨name, .up, .success⟩], none⟩) t := by
    apply Action.Replays.does
    rw [replays_batch u h₄ rfl hholds hplan]
    exact replays_follow_single u hlookup h₅ rfl ht hran (hreceive {}) ⟨rfl, rfl, rfl⟩
  have hgranted : u.dialect.verdict (.ok { rows := [[("acquired", .int 1)]] }) = .ok () := by
    rw [hd]
    decide
  exact does_run u (by rw [hd]; rfl) (by rw [hd]; rfl) (by rw [hd]; rfl) h₁ h₂ h₃ (hreceive {})
    (hreceive {}) (hreceive _) rfl hgranted (.ok {}) hs hi ht hbatch

end Replays

/-- The tables are made by statements on the pool, one after another. -/
theorem ensureTables_induction {P : List Act → Prop} (hnil : P [])
    (happend : ∀ {xs ys}, P xs → P ys → P (xs ++ ys))
    (hperform : ∀ {n s acts r t}, n ∈ [createTable, createLockTable, selectLockRow, insertLockRow] →
      (perform (u.handle .pool) n).Does s acts r t → P acts) {r : Except Error Unit}
    (hdoes : (u.migrator registered).ensureTables.Does s acts r t) : P acts := by
  rw [ensureTables, u.database_migrator] at hdoes
  obtain ⟨e, rfl, h₁⟩ | ⟨r₁, v₁, acts₁, rest₁, rfl, h₁, hrest₁⟩ := does_bind.mp hdoes
  · exact hperform (by simp) h₁
  refine happend (hperform (by simp) h₁) ?_
  obtain ⟨e, rfl, h₂⟩ | ⟨r₂, v₂, acts₂, rest₂, rfl, h₂, hrest₂⟩ := does_bind.mp hrest₁
  · exact hperform (by simp) h₂
  refine happend (hperform (by simp) h₂) ?_
  obtain ⟨e, rfl, h₃⟩ | ⟨r₃, v₃, acts₃, rest₃, rfl, h₃, hrest₃⟩ := does_bind.mp hrest₂
  · exact hperform (by simp) h₃
  refine happend (hperform (by simp) h₃) ?_
  split at hrest₃
  · obtain ⟨e, rfl, h₄⟩ | ⟨r₄, v₄, acts₄, rest₄, rfl, h₄, hend⟩ := does_bind.mp hrest₃
    · exact hperform (by simp) h₄
    · obtain ⟨rfl, -, -⟩ := (Action.does_pure _).mp hend
      exact happend (hperform (by simp) h₄) hnil
  · obtain ⟨rfl, -, -⟩ := (Action.does_pure _).mp hrest₃
    exact hnil

section Run

variable (hstays : ∀ x ∈ registered, x.2.Stays u) {target : Target} {r : Except Error Batch}
include hstays

theorem does_lockedBatch (hdoes : ((u.migrator registered).lockedBatch target).Does s acts r t) :
    Locked u registered target s.initialized acts (told r) := by
  let body (db : Database Paths) : Action Paths Batch :=
    locked db ((u.migrator registered).batch db target)
  -- the batch keeps its connection, and so does the lock around it
  have hlocked : ∀ {scope i c s acts r t}, (u.handle scope).binding? = some i →
      s.holds? i = some c → (body (u.handle scope)).Does s acts r t → _ :=
    fun hs h => does_locked u hs h (holds?_batch u hs hstays h)
  rw [lockedBatch, u.database_migrator] at hdoes
  cases hd : u.dialect.undoesDefinitions with
  | true =>
    rw [if_pos (by rw [Party.handle, hd])] at hdoes
    -- the answer of the transaction, and then the batch with its error
    have hanswer : ∃ r', ((u.handle .pool).transactionUnless Batch.error {} body).Does s acts r' t ∧
        r = r'.map fun x => { x.1 with error := x.2 } := by
      obtain ⟨e, rfl, h⟩ | ⟨x, v, before, after, rfl, h, hend⟩ := does_bind.mp hdoes
      · exact ⟨_, h, rfl⟩
      · obtain ⟨rfl, rfl, rfl⟩ := (Action.does_pure _).mp hend
        exact ⟨_, by rwa [List.append_nil], rfl⟩
    obtain ⟨r', htransaction, rfl⟩ := hanswer
    obtain ⟨calls, a, hopens, ⟨e, rfl, rfl, rfl⟩ | ⟨c, rfl, ⟨e, rfl, rfl⟩ |
      ⟨i, v, performed, w, acts', ending, ended, hholds, hbody, hsettles, rfl, rfl⟩⟩⟩ :=
      Database.does_transactionUnless u (fun h hdoes => (hlocked rfl h hdoes).1) htransaction
    · exact .unconnected hopens
    · exact .unbegun hd hopens
    · obtain ⟨-, asking, granted, hasks, ⟨e, rfl, rfl, rfl⟩ |
        ⟨rfl, batch, outcome, v', giving, given, hbatch, hgives, rfl, rfl⟩⟩ :=
        hlocked rfl hholds hbody
      · cases hsettles with
        | undone e back => exact .refused hd back hopens hasks
      · obtain ⟨rfl, hreleased⟩ := released_of_givesBack u hd hgives outcome
        rw [hreleased] at hsettles ⊢
        suffices hsettled : Settles c (unsettled outcome) ending ended ∧
            told ((Database.settled outcome ended).map fun x => { x.1 with error := x.2 }) =
              ⟨reports outcome, error? ended⟩ by
          rw [hsettled.2]
          simp only [List.append_nil, List.append_assoc]
          exact .settled hd hopens hasks hholds hbatch hsettled.1
        cases outcome with
        | error e =>
          cases hsettles with
          | undone e back => exact ⟨.undone e back, rfl⟩
        | ok b => exact ⟨hsettles, by cases ended <;> rfl⟩
  | false =>
    rw [if_neg (by rw [Party.handle, hd]; exact Bool.false_ne_true)] at hdoes
    obtain ⟨calls, a, hopens, ⟨e, rfl, rfl, rfl⟩ | ⟨c, i, v, w, acts', rfl, hholds, hbody, rfl⟩⟩ :=
      Database.does_connection u (fun h hdoes => (hlocked rfl h hdoes).1) hdoes
    · exact .unconnected hopens
    · obtain ⟨-, asking, granted, hasks, ⟨e, rfl, rfl, rfl⟩ |
        ⟨rfl, batch, outcome, v', giving, given, hbatch, hgives, rfl, rfl⟩⟩ :=
        hlocked rfl hholds hbody
      · exact .denied hd hopens hasks
      · rw [told_released]
        simp only [List.append_assoc]
        exact .unlocked hd hopens hasks hholds hbatch hgives

omit hstays in
/-- A run makes its tables, and then runs its batch under the lock. -/
theorem does_run_cases (hdoes : ((u.migrator registered).run target).Does s acts r t) :
    ∃ making made v rest, acts = making ++ rest ∧
      (u.migrator registered).ensureTables.Does s making made v ∧
      ((∃ e, made = .error e ∧ rest = [] ∧ r = .ok { error := some e }) ∨
        made = .ok () ∧ ∃ outcome, r = .ok (told outcome) ∧
          ((u.migrator registered).lockedBatch target).Does v rest outcome t) := by
  obtain ⟨outcome, v, before, after, rfl, houtcome, hend⟩ := Action.does_bind_attempt.mp hdoes
  have htold : after = [] ∧ r = .ok (told outcome) ∧ t = v := by
    cases outcome <;> exact (Action.does_pure _).mp hend
  obtain ⟨rfl, rfl, rfl⟩ := htold
  obtain ⟨e, rfl, hmaking⟩ | ⟨⟨⟩, v', making, rest, rfl, hmaking, hbatch⟩ := does_bind.mp houtcome
  · exact ⟨before, _, _, [], rfl, hmaking, .inl ⟨e, rfl, rfl, rfl⟩⟩
  · exact ⟨making, _, v', rest, List.append_nil _, hmaking, .inr ⟨rfl, outcome, rfl, hbatch⟩⟩

/-- A run makes its tables, which may fail.  Then it takes a connection and begins a transaction, if
that is of use; the lock is the first thing it asks for, and without the lock there is no batch.
Behind the batch, whether it failed or not, the lock is given back where it has to be, or else the
transaction is settled: undone after a failure, and committed otherwise.  The connection is given
back last.  The error is that of the batch, with that of undoing it, or else that of giving the lock
back or of the commit. -/
theorem run_locked (hdoes : ((u.migrator registered).run target).Does s acts r t) :
    ∃ making made v rest, acts = making ++ rest ∧
      (u.migrator registered).ensureTables.Does s making made v ∧
      ((∃ e, made = .error e ∧ rest = [] ∧ r = .ok { error := some e }) ∨
        made = .ok () ∧ ∃ b, r = .ok b ∧ Locked u registered target v.initialized rest b) := by
  obtain ⟨making, made, v, rest, rfl, hmaking, hfailed | ⟨hmade, outcome, rfl, hbatch⟩⟩ :=
    does_run_cases u hdoes
  · exact ⟨making, made, v, rest, rfl, hmaking, .inl hfailed⟩
  · exact ⟨making, made, v, rest, rfl, hmaking,
      .inr ⟨hmade, _, rfl, does_lockedBatch u hstays hbatch⟩⟩

end Run

/-- A migration of one statement, executed under the lock of a session. -/
theorem run_locked_mysql :
    let u : Party := { dialect := .mysql }
    let registered : List (String × Migration Paths) :=
      [("a", .statements [⟨.raw ["create table t (id int)"] []⟩] [])]
    let answer : Except Error Batch := .ok ⟨[⟨"a", .up, .success⟩], none⟩
    ∃ acts t, (∀ x ∈ registered, x.2.Stays u) ∧
      ((u.migrator registered).run .latest).Does { initialized := true } acts answer t ∧
      ∃ making made v rest, acts = making ++ rest ∧
        (u.migrator registered).ensureTables.Does { initialized := true } making made v ∧
        ((∃ e, made = .error e ∧ rest = [] ∧ answer = .ok { error := some e }) ∨
          made = .ok () ∧ ∃ b, answer = .ok b ∧
            Locked u registered .latest v.initialized rest b) := by
  obtain ⟨q, hq⟩ : ∃ q, Node.compile .mysql ⟨.raw ["create table t (id int)"] []⟩ = .ok q :=
    exists_of_isOk (by decide +kernel)
  -- nothing else is to be known of the statement
  generalize (⟨.raw ["create table t (id int)"] []⟩ : Node) = n at hq ⊢
  intro u registered answer
  have hstays : ∀ x ∈ registered, x.2.Stays u := by
    intro x hx
    obtain rfl := List.mem_singleton.mp hx
    exact Migration.stays_statements u _ _
  have hbound : (Shared.bind { initialized := true } ⟨some ⟨0⟩, false⟩).holds? 0 = some ⟨0⟩ := rfl
  have hran : ((u.handle (.connection 0)).runAll [n]).Does
      (Shared.bind { initialized := true } ⟨some ⟨0⟩, false⟩) [.call (.execute ⟨0⟩ q (.ok {}))]
      (.ok ()) (Shared.bind { initialized := true } ⟨some ⟨0⟩, false⟩) :=
    Database.does_runAll_single u rfl hbound hq rfl
  obtain ⟨_, _, _, _, _, -, -, -, -, -, hdoes⟩ :=
    exists_does_run_mysql "a" "" (.statements [n] []) (s := { initialized := true }) rfl rfl hran
      hbound
  exact ⟨_, _, hstays, hdoes, run_locked u hstays hdoes⟩

end Migrator

end SqlTree
