import SqlTree.Proofs.Database.Replays
import SqlTree.Proofs.Migrate.Registration

/-!
# Paths of batches

What a batch of migrations can do on the connection it is lent: read the history, run migrations and
keep the books of them.
-/

namespace SqlTree

open Action (does_bind)

/-- A migration that leaves the connection it is lent in its binding. -/
def Migration.Stays (u : Party) (migration : Migration Paths) : Prop :=
  ∀ direction scope i c s acts r t, (u.handle scope).binding? = some i → s.holds? i = some c →
    (migration.way direction (u.handle scope)).Does s acts r t → t.holds? i = some c

/-- A statement that was built is one call on a connection, unless it cannot be compiled. -/
inductive Party.Sends (u : Party) (c : Connection) (n : Except Error Node) :
    List Act → Except Error QueryResult → Prop
  | unsent {e : Error} (h : n.bind u.compile = .error e) : Sends u c n [] (.error e)
  | sent {q : Compiled} (h : n.bind u.compile = .ok q) (a : Except Error QueryResult) :
    Sends u c n [.call (.execute c q a)] (u.receive a)

section Statements

/-- Runs statements as long as they succeed. -/
def Database.runAll {m : Type → Type} [Monad m] (db : Database m) : List Node → Action m Unit
  | [] => pure ()
  | n :: ns => do
    let _ ← db.run n
    db.runAll ns

/-- A migration that runs statements, each way its own. -/
def Migration.statements {m : Type → Type} [Monad m] (ups downs : List Node) : Migration m where
  up db := db.runAll ups
  down db := db.runAll downs

theorem Migration.way_statements (ups downs : List Node) (direction : Migrate.Direction)
    (db : Database Paths) : ∃ ns, ns ⊆ ups ++ downs ∧
      (Migration.statements ups downs).way direction db = db.runAll ns := by
  cases direction with
  | up => exact ⟨ups, List.subset_append_left .., rfl⟩
  | down => exact ⟨downs, List.subset_append_right .., rfl⟩

variable (u : Party) {scope : Scope} {i : Nat} {c : Connection} {s t : Shared} {acts : List Act}

theorem Database.does_runAll (hs : (u.handle scope).binding? = some i) (h : s.holds? i = some c)
    {ns : List Node} {r : Except Error Unit}
    (hdoes : ((u.handle scope).runAll ns).Does s acts r t) :
    t = s ∧ ∃ calls : List Call, acts = calls.map .call ∧
      ∀ x ∈ calls, ∃ n q a, n ∈ ns ∧ u.compile n = .ok q ∧ x = .execute c q a := by
  induction ns generalizing s acts with
  | nil =>
    obtain ⟨rfl, -, rfl⟩ := (Action.does_pure _).mp hdoes
    exact ⟨rfl, [], rfl, nofun⟩
  | cons n ns ih =>
    -- what the first statement does, if anything
    have hfirst : ∀ {acts r v}, ((u.handle scope).run n).Does s acts r v → v = s ∧
        ∃ calls : List Call, acts = calls.map .call ∧
          ∀ x ∈ calls, ∃ n' q a, n' ∈ n :: ns ∧ u.compile n' = .ok q ∧ x = .execute c q a := by
      intro acts r v hrun
      obtain ⟨rfl, ⟨e, -, rfl, -⟩ | ⟨q, a, hq, rfl, -⟩⟩ := Database.does_run u hs h hrun
      · exact ⟨rfl, [], rfl, nofun⟩
      · refine ⟨rfl, [_], rfl, fun x hx => ?_⟩
        obtain rfl := List.mem_singleton.mp hx
        exact ⟨n, q, a, List.mem_cons_self, hq, rfl⟩
    obtain ⟨e, rfl, hrun⟩ | ⟨a, v, before, after, rfl, hrun, hrest⟩ := does_bind.mp hdoes
    · exact hfirst hrun
    · obtain ⟨rfl, calls, rfl, hcalls⟩ := hfirst hrun
      obtain ⟨rfl, calls', rfl, hcalls'⟩ := ih h hrest
      refine ⟨rfl, calls ++ calls', (List.map_append ..).symm, fun x hx => ?_⟩
      obtain hx | hx := List.mem_append.mp hx
      · exact hcalls x hx
      · obtain ⟨n', q, a, hn', hq, rfl⟩ := hcalls' x hx
        exact ⟨n', q, a, List.mem_cons_of_mem n hn', hq, rfl⟩

/-- Statements leave the connection they run on where it is. -/
theorem Migration.stays_statements (ups downs : List Node) :
    (Migration.statements ups downs).Stays u := by
  intro direction scope i c s acts r t hs h hdoes
  obtain ⟨ns, -, heq⟩ := way_statements ups downs direction (u.handle scope)
  rw [heq] at hdoes
  obtain ⟨rfl, -⟩ := Database.does_runAll u hs h hdoes
  exact h

/-- A single statement that is answered. -/
theorem Database.does_runAll_single (hs : (u.handle scope).binding? = some i)
    (h : s.holds? i = some c) {n : Node} {q : Compiled} (hn : u.compile n = .ok q)
    {a : Except Error QueryResult} {r : QueryResult} (ha : u.receive a = .ok r) :
    ((u.handle scope).runAll [n]).Does s [.call (.execute c q a)] (.ok ()) s := by
  apply Action.Replays.does
  rw [runAll, Action.replays_bind, Database.replays_run u a hn hs h, ha]
  exact (Action.replays_pure _).mpr ⟨rfl, rfl, rfl⟩

end Statements

namespace Migrate

/-- The executed migrations, as an answer tells them. -/
def history (a : Except Error QueryResult) : Except Error (List Executed) :=
  a.bind fun r => r.rows.mapM Executed.ofRow

/-- The plan that is made from an answer. -/
def planned (names : List String) (target : Target) (a : Except Error QueryResult) :
    Except Error Plan := do
  let done ← history a
  checkHistory names (done.map Executed.name)
  Plan.of names done.length target

theorem planned_eq_ok_iff {names : List String} {target : Target} {a : Except Error QueryResult}
    {plan : Plan} : planned names target a = .ok plan ↔ ∃ done, history a = .ok done ∧
      checkHistory names (done.map Executed.name) = .ok () ∧
        Plan.of names done.length target = .ok plan := by
  rw [planned]
  cases history a with
  | error e => simp [Bind.bind, Except.bind]
  | ok done =>
    cases hcheck : checkHistory names (done.map Executed.name) <;>
      simp [Bind.bind, Except.bind, hcheck]

/-- The statement that books a migration that ran. -/
inductive Books (name : String) : Direction → Except Error Node → Prop
  | record (time : String) : Books name .up (record name time)
  | unrecord : Books name .down (unrecord name)

end Migrate

namespace Migrator

open Migrate

/-- How a migration that ran is booked. -/
def booking (g : Migrator Paths) (db : Database Paths) (direction : Direction) (name : String) :
    Action Paths Unit :=
  match direction with
  | .up => do
    let time ← Action.tell g.now
    let _ ← perform db (record name time)
  | .down => do
    let _ ← perform db (unrecord name)

theorem step_of_lookup {g : Migrator Paths} {name : String} {migration : Migration Paths}
    (h : g.migrations.lookup name = some migration) {db : Database Paths} {direction : Direction} :
    g.step db direction name = (do
      migration.way direction db
      g.booking db direction name) := by
  rw [step, h]
  cases direction <;> rfl

variable (u : Party) {registered : List (String × Migration Paths)} {s t : Shared} {acts : List Act}
  {scope : Scope} {i : Nat} {c : Connection}

section Bound

variable (hs : (u.handle scope).binding? = some i) (h : s.holds? i = some c)
include hs h

theorem does_perform {n : Except Error Node} {r : Except Error QueryResult}
    (hdoes : (perform (u.handle scope) n).Does s acts r t) : t = s ∧ u.Sends c n acts r := by
  rw [perform, Action.does_bind_ofExcept] at hdoes
  cases n with
  | error e =>
    obtain ⟨rfl, rfl, rfl⟩ := hdoes
    exact ⟨rfl, .unsent rfl⟩
  | ok n =>
    obtain ⟨rfl, ⟨e, hn, rfl, rfl⟩ | ⟨q, a, hn, rfl, rfl⟩⟩ := Database.does_run u hs h hdoes
    · exact ⟨rfl, .unsent (show (Except.ok n).bind u.compile = .error e from hn)⟩
    · exact ⟨rfl, .sent (show (Except.ok n).bind u.compile = .ok q from hn) a⟩

theorem does_executed {r : Except Error (List Executed)}
    (hdoes : (executed (u.handle scope)).Does s acts r t) :
    t = s ∧ ∃ a, u.Sends c selectExecuted acts a ∧ r = history a := by
  obtain ⟨e, rfl, hp⟩ | ⟨a, v, before, after, rfl, hp, hread⟩ := does_bind.mp hdoes
  · obtain ⟨rfl, hsends⟩ := does_perform u hs h hp
    exact ⟨rfl, _, hsends, rfl⟩
  · obtain ⟨rfl, rfl, rfl⟩ := (Action.does_ofExcept _).mp hread
    obtain ⟨rfl, hsends⟩ := does_perform u hs h hp
    exact ⟨rfl, _, by rwa [List.append_nil], rfl⟩

theorem does_book {n : Except Error Node} {r : Except Error Unit}
    (hdoes : Action.Does (do let _ ← perform (u.handle scope) n) s acts r t) :
    t = s ∧ ∃ a, u.Sends c n acts a ∧ r = a.map fun _ => () := by
  obtain ⟨e, rfl, hp⟩ | ⟨a, v, before, after, rfl, hp, hend⟩ := does_bind.mp hdoes
  · obtain ⟨rfl, hsends⟩ := does_perform u hs h hp
    exact ⟨rfl, _, hsends, rfl⟩
  · obtain ⟨rfl, rfl, rfl⟩ := (Action.does_pure _).mp hend
    obtain ⟨rfl, hsends⟩ := does_perform u hs h hp
    exact ⟨rfl, _, by rwa [List.append_nil], rfl⟩

/-- A migration that ran is booked by one statement. -/
theorem does_booking {direction : Direction} {name : String} {r : Except Error Unit}
    (hdoes : ((u.migrator registered).booking (u.handle scope) direction name).Does s acts r t) :
    t = s ∧ ∃ n answer, Books name direction n ∧ u.Sends c n acts answer ∧
      r = answer.map fun _ => () := by
  cases direction with
  | up =>
    obtain ⟨time, looking, booked, rfl, hlooking, hbooked⟩ := Action.does_bind_tell.mp hdoes
    rw [u.now_migrator] at hlooking
    obtain rfl : looking = [] := hlooking
    obtain ⟨rfl, answer, hsends, rfl⟩ := does_book u hs h hbooked
    exact ⟨rfl, _, answer, .record time, hsends, rfl⟩
  | down =>
    obtain ⟨rfl, answer, hsends, rfl⟩ := does_book u hs h hdoes
    exact ⟨rfl, _, answer, .unrecord, hsends, rfl⟩

/-- A step of a batch runs its migration, and books it if it succeeded. -/
theorem does_step (hstays : ∀ x ∈ registered, x.2.Stays u) {direction : Direction} {name : String}
    {r : Except Error Unit}
    (hdoes : ((u.migrator registered).step (u.handle scope) direction name).Does s acts r t) :
    t.holds? i = some c ∧
      ((u.migrator registered).migrations.lookup name = none ∧ acts = [] ∧ (∃ e, r = .error e) ∨
        ∃ migration ran v a booked, (name, migration) ∈ registered ∧
          (migration.way direction (u.handle scope)).Does s ran a v ∧ acts = ran ++ booked ∧
          ((∃ e, a = .error e ∧ booked = [] ∧ r = .error e) ∨
            a = .ok () ∧ ∃ n answer, Books name direction n ∧ u.Sends c n booked answer ∧
              r = answer.map fun _ => ())) := by
  cases hlookup : (u.migrator registered).migrations.lookup name with
  | none =>
    rw [step, hlookup] at hdoes
    obtain ⟨rfl, rfl, rfl⟩ := (Action.does_throw _).mp hdoes
    exact ⟨h, .inl ⟨rfl, rfl, _, rfl⟩⟩
  | some migration =>
    rw [step_of_lookup hlookup] at hdoes
    have hmem := u.mem_of_lookup registered hlookup
    have hkept : ∀ {ran a v}, (migration.way direction (u.handle scope)).Does s ran a v →
        v.holds? i = some c := fun hran => hstays _ hmem direction _ _ _ _ _ _ _ hs h hran
    obtain ⟨e, rfl, hran⟩ | ⟨⟨⟩, v, ran, booked, rfl, hran, hbook⟩ := does_bind.mp hdoes
    · exact ⟨hkept hran, .inr ⟨migration, acts, _, _, [], hmem, hran, (List.append_nil _).symm,
        .inl ⟨e, rfl, rfl, rfl⟩⟩⟩
    · obtain ⟨rfl, n, answer, hbooks, hsends, rfl⟩ := does_booking u hs (hkept hran) hbook
      exact ⟨hkept hran, .inr ⟨migration, ran, _, _, booked, hmem, hran, rfl,
        .inr ⟨rfl, n, answer, hbooks, hsends, rfl⟩⟩⟩

end Bound

section Follow

variable {direction : Direction} {r : Except Error Batch}

/-- A batch goes on after a step that succeeds, and ends with one that fails. -/
theorem does_follow_cons {g : Migrator Paths} {db : Database Paths} {name : String}
    {rest : List String} (hdoes : (g.follow db direction (name :: rest)).Does s acts r t) :
    ∃ a v before after, acts = before ++ after ∧ (g.step db direction name).Does s before a v ∧
      ((∃ e, a = .error e ∧ after = [] ∧ t = v ∧
          r = .ok ⟨⟨name, direction, .error⟩ :: rest.map (⟨·, direction, .notExecuted⟩),
            some (.migration (.failed name e))⟩) ∨
        a = .ok () ∧ ∃ r', (g.follow db direction rest).Does v after r' t ∧
          r = r'.map fun b => { b with reports := ⟨name, direction, .success⟩ :: b.reports }) := by
  obtain ⟨a, v, before, after, rfl, hstep, hrest⟩ := Action.does_bind_attempt.mp hdoes
  refine ⟨a, v, before, after, rfl, hstep, ?_⟩
  cases a with
  | error e =>
    obtain ⟨rfl, rfl, rfl⟩ := (Action.does_pure _).mp hrest
    exact .inl ⟨e, rfl, rfl, rfl, rfl⟩
  | ok a =>
    refine .inr ⟨rfl, ?_⟩
    obtain ⟨e, rfl, hfollow⟩ | ⟨b, v', before', after', rfl, hfollow, hend⟩ := does_bind.mp hrest
    · exact ⟨_, hfollow, rfl⟩
    · obtain ⟨rfl, rfl, rfl⟩ := (Action.does_pure _).mp hend
      exact ⟨_, by rwa [List.append_nil], rfl⟩

variable (hs : (u.handle scope).binding? = some i) (hstays : ∀ x ∈ registered, x.2.Stays u)
include hs hstays

theorem holds?_follow {names : List String} (h : s.holds? i = some c)
    (hdoes : ((u.migrator registered).follow (u.handle scope) direction names).Does s acts r t) :
    t.holds? i = some c := by
  induction names generalizing s acts r with
  | nil =>
    obtain ⟨-, -, rfl⟩ := (Action.does_pure _).mp hdoes
    exact h
  | cons name rest ih =>
    obtain ⟨a, v, before, after, rfl, hstep, hend⟩ := does_follow_cons hdoes
    have hv := (does_step u hs h hstays hstep).1
    obtain ⟨e, -, -, rfl, -⟩ | ⟨-, r', hrest, -⟩ := hend
    · exact hv
    · exact ih hv hrest

omit hstays in
/-- A batch reads the history, and then follows the plan it makes of it. -/
theorem does_batch (h : s.holds? i = some c) {target : Target}
    (hdoes : ((u.migrator registered).batch (u.handle scope) target).Does s acts r t) :
    ∃ answer reading following, u.Sends c selectExecuted reading answer ∧
      acts = reading ++ following ∧
      ((∃ e, planned (u.migrator registered).names target answer = .error e ∧ following = [] ∧
          r = .error e ∧ t = s) ∨
        ∃ plan, planned (u.migrator registered).names target answer = .ok plan ∧
          ((u.migrator registered).follow (u.handle scope) plan.direction plan.names).Does
            s following r t) := by
  obtain ⟨e, rfl, hread⟩ | ⟨done, v, reading, following, rfl, hread, hrest⟩ :=
    does_bind.mp hdoes
  · obtain ⟨rfl, answer, hsends, hr⟩ := does_executed u hs h hread
    exact ⟨answer, acts, [], hsends, (List.append_nil _).symm,
      .inl ⟨e, by rw [planned, ← hr]; rfl, rfl, rfl, rfl⟩⟩
  · obtain ⟨rfl, answer, hsends, hr⟩ := does_executed u hs h hread
    refine ⟨answer, reading, following, hsends, rfl, ?_⟩
    have hplanned : planned (u.migrator registered).names target answer = (do
        checkHistory (u.migrator registered).names (done.map Executed.name)
        Plan.of (u.migrator registered).names done.length target) := by
      rw [planned, ← hr]
      rfl
    rw [hplanned]
    rw [Action.does_bind_ofExcept] at hrest
    cases hcheck : checkHistory (u.migrator registered).names (done.map Executed.name) with
    | error e =>
      rw [hcheck] at hrest
      obtain ⟨rfl, rfl, rfl⟩ := hrest
      exact .inl ⟨e, rfl, rfl, rfl, rfl⟩
    | ok a =>
      rw [hcheck, Action.does_bind_ofExcept] at hrest
      cases hplan : Plan.of (u.migrator registered).names done.length target with
      | error e =>
        rw [hplan] at hrest
        obtain ⟨rfl, rfl, rfl⟩ := hrest
        exact .inl ⟨e, rfl, rfl, rfl, rfl⟩
      | ok plan =>
        rw [hplan] at hrest
        exact .inr ⟨plan, rfl, hrest⟩

theorem holds?_batch (h : s.holds? i = some c) {target : Target}
    (hdoes : ((u.migrator registered).batch (u.handle scope) target).Does s acts r t) :
    t.holds? i = some c := by
  obtain ⟨_, _, _, -, -, ⟨e, -, -, -, rfl⟩ | ⟨plan, -, hfollow⟩⟩ := does_batch u hs h hdoes
  · exact h
  · exact holds?_follow u hs hstays h hfollow

end Follow

/-! ### Ways back: batches that nothing hinders -/

section Replays

open Action (replays_bind replays_pure replays_ofExcept replays_attempt Does.replays does_tell)

variable {name time : String} {migration : Migration Paths} {q : Compiled} {target : Target}
  {plan : Plan}

theorem replays_perform {n : Except Error Node} (hn : n.bind u.compile = .ok q)
    (hs : (u.handle scope).binding? = some i) (h : s.holds? i = some c)
    (a : Except Error QueryResult)
    {goOn : Except Error QueryResult → Shared → List Act → Prop} :
    (perform (u.handle scope) n).Replays s (.call (.execute c q a) :: acts) goOn ↔
      goOn (u.receive a) s acts := by
  cases n with
  | error e => cases hn
  | ok n =>
    rw [perform, Action.replays_bind, Action.replays_ofExcept]
    exact Database.replays_run u a hn hs h

/-- A batch follows the plan it makes of the history. -/
theorem replays_batch (hq : selectExecuted.bind u.compile = .ok q)
    (hs : (u.handle scope).binding? = some i) (h : s.holds? i = some c)
    {a : Except Error QueryResult}
    (hplan : planned (u.migrator registered).names target (u.receive a) = .ok plan)
    {goOn : Except Error Batch → Shared → List Act → Prop} :
    ((u.migrator registered).batch (u.handle scope) target).Replays s
      (.call (.execute c q a) :: acts) goOn ↔
        ((u.migrator registered).follow (u.handle scope) plan.direction plan.names).Replays s acts
          goOn := by
  obtain ⟨done, hdone, hcheck, hplan⟩ := planned_eq_ok_iff.mp hplan
  rw [batch, executed, replays_bind, replays_bind, replays_perform u hq hs h]
  cases hr : u.receive a with
  | error e =>
    rw [hr] at hdone
    cases hdone
  | ok r =>
    rw [hr] at hdone
    dsimp only
    rw [replays_ofExcept, show r.rows.mapM Executed.ofRow = .ok done from hdone]
    dsimp only
    rw [replays_bind, replays_ofExcept, hcheck]
    dsimp only
    rw [replays_bind, replays_ofExcept, hplan]

/-- A migration that is executed and booked. -/
theorem replays_step {a : Except Error QueryResult} {ran : List Act}
    (hlookup : (u.migrator registered).migrations.lookup name = some migration)
    (hq : (record name time).bind u.compile = .ok q)
    (hs : (u.handle scope).binding? = some i) (ht : t.holds? i = some c)
    (hran : (migration.up (u.handle scope)).Does s ran (.ok ()) t)
    {goOn : Except Error Unit → Shared → List Act → Prop}
    (hgo : goOn ((u.receive a).map fun _ => ()) t acts) :
    ((u.migrator registered).step (u.handle scope) .up name).Replays s
      (ran ++ .call (.execute c q a) :: acts) goOn := by
  have hclock : (Action.tell (u.migrator registered).now).Does t [] (.ok time) t := by
    rw [u.now_migrator]
    exact (does_tell _).mpr ⟨time, rfl, rfl, rfl⟩
  rw [step_of_lookup hlookup, replays_bind]
  refine hran.replays _ ?_
  dsimp only
  rw [booking, replays_bind]
  refine Does.replays [] hclock ?_
  dsimp only
  rw [replays_bind, replays_perform u hq hs ht]
  cases hr : u.receive a with
  | error e =>
    rw [hr] at hgo
    exact hgo
  | ok r =>
    rw [hr] at hgo
    exact (replays_pure _).mpr hgo

/-- A plan to execute one migration. -/
theorem replays_follow_single {a : Except Error QueryResult} {ran : List Act} {r : QueryResult}
    (hlookup : (u.migrator registered).migrations.lookup name = some migration)
    (hq : (record name time).bind u.compile = .ok q)
    (hs : (u.handle scope).binding? = some i) (ht : t.holds? i = some c)
    (hran : (migration.up (u.handle scope)).Does s ran (.ok ()) t) (ha : u.receive a = .ok r)
    {goOn : Except Error Batch → Shared → List Act → Prop}
    (hgo : goOn (.ok ⟨[⟨name, .up, .success⟩], none⟩) t acts) :
    ((u.migrator registered).follow (u.handle scope) .up [name]).Replays s
      (ran ++ .call (.execute c q a) :: acts) goOn := by
  rw [follow, replays_bind, replays_attempt]
  refine replays_step u hlookup hq hs ht hran ?_
  rw [ha]
  simp only [Except.map, replays_bind, replays_pure, follow]
  exact hgo

end Replays

end Migrator

end SqlTree
