import SqlTree.Proofs.Migrate.Standings

/-!
# Reports of migration runs

A run that comes to a plan reports every migration of it, in order: some succeeded, the next one may
have failed, and the others were not executed.  The reports tell what was done, since just the
migrations that succeeded or failed were started, and each that succeeded was booked before the next
one (`Tells`).  A run that comes to no plan reports nothing and starts nothing
(`Migrator.run_reported`).
-/

namespace SqlTree

open Migrate

def Act.start? : Act → Option (Direction × String)
  | .starts direction name => some (direction, name)
  | _ => none

namespace Migrate

/-- The migrations that were started, in order. -/
def started (acts : List Act) : List (Direction × String) := acts.filterMap Act.start?

@[simp] theorem started_nil : started [] = [] := rfl

@[simp] theorem started_starts (direction : Direction) (name : String) (acts : List Act) :
    started (.starts direction name :: acts) = (direction, name) :: started acts := rfl

@[simp] theorem started_stops (direction : Direction) (name : String) (acts : List Act) :
    started (.stops direction name :: acts) = started acts := rfl

@[simp] theorem started_call (x : Call) (acts : List Act) :
    started (.call x :: acts) = started acts := rfl

@[simp] theorem started_append (xs ys : List Act) :
    started (xs ++ ys) = started xs ++ started ys := List.filterMap_append

@[simp] theorem started_map_call (calls : List Call) : started (calls.map .call) = [] := by
  induction calls with
  | nil => rfl
  | cons x calls ih => exact ih

end Migrate

/-! ### Acts that start nothing -/

section Nothing

variable {u : Party} {registered : List (String × Migration Paths)} {s t : Shared} {acts : List Act}
  {c : Connection}

/-- The beginning of a transaction, where a run is one. -/
def Party.begun (u : Party) (c : Connection) : List Act :=
  if u.dialect.undoesDefinitions then [.call (.begin c {} (.ok ()))] else []

theorem Party.Sends.started {n : Except Error Node} {answer : Except Error QueryResult}
    (h : u.Sends c n acts answer) : Migrate.started acts = [] := by
  cases h <;> rfl

theorem Dialect.Asks.started {d : Dialect} {granted : Except Error Unit}
    (h : d.Asks c acts granted) : Migrate.started acts = [] := by
  cases h <;> rfl

theorem Dialect.GivesBack.started {d : Dialect} {given : Except Error Unit}
    (h : d.GivesBack c acts given) : Migrate.started acts = [] := by
  cases h <;> rfl

theorem Party.started_begun (u : Party) (c : Connection) : started (u.begun c) = [] := by
  rw [begun]
  split <;> rfl

namespace Migrator

theorem started_perform {n : Except Error Node} {r : Except Error QueryResult}
    (hdoes : (perform (u.handle .pool) n).Does s acts r t) : started acts = [] := by
  rw [perform, Action.does_bind_ofExcept] at hdoes
  cases n with
  | error e =>
    obtain ⟨rfl, -, -⟩ := hdoes
    rfl
  | ok n =>
    obtain ⟨e, -, rfl, -⟩ | ⟨q, calls, opened, -, -, ⟨e, -, rfl, -⟩ | ⟨c, a, -, -, rfl⟩⟩ :=
      Database.does_run_pool u hdoes
    · rfl
    · simp
    · simp

theorem started_ensureTables {r : Except Error Unit}
    (hdoes : (u.migrator registered).ensureTables.Does s acts r t) : started acts = [] := by
  have happend : ∀ {xs ys}, started xs = [] → started ys = [] → started (xs ++ ys) = [] :=
    fun hxs hys => by rw [started_append, hxs, hys, List.append_nil]
  exact ensureTables_induction (P := fun acts => started acts = []) u rfl happend
    (fun _ => started_perform) hdoes

end Migrator

end Nothing

/-- A migration that stays where it is, and marks no beginning or end itself. -/
structure Migration.Unmarking (u : Party) (migration : Migration Paths) : Prop where
  stays : migration.Stays u
  calls {direction : Direction} {scope : Scope} {i : Nat} {c : Connection} {s t : Shared}
    {acts : List Act} {r : Except Error Unit} (hs : (u.handle scope).binding? = some i)
    (h : s.holds? i = some c)
    (hdoes : (migration.way direction (u.handle scope)).Does s acts r t) :
    ∃ calls : List Call, acts = calls.map .call

theorem Migration.unmarking_statements (u : Party) (ups downs : List Node) :
    (Migration.statements ups downs).Unmarking u where
  stays := stays_statements u ups downs
  calls {direction scope i c s t acts r} hs h hdoes := by
    obtain ⟨ns, -, heq⟩ := way_statements ups downs direction (u.handle scope)
    rw [heq] at hdoes
    obtain ⟨-, calls, hcalls, -⟩ := Database.does_runAll u hs h hdoes
    exact ⟨calls, hcalls⟩

namespace Migrate

/-- Whether the migration of a report was started. -/
def Report.ran (x : Report) : Bool := x.status != .notExecuted

section Vocabulary

variable (u : Party) (registered : List (String × Migration Paths)) (s : Shared)

/-- What comes before the batch of a run, and the connection on which the batch may start. -/
inductive Prepares : List Act → Except Error Connection → Prop
  | untabled {making : List Act} {e : Error} {v : Shared}
    (hmakes : (u.migrator (watched registered)).ensureTables.Does s making (.error e) v) :
    Prepares making (.error e)
  | unconnected {making : List Act} {v : Shared} {calls : List Call} {e : Error}
    (hmakes : (u.migrator (watched registered)).ensureTables.Does s making (.ok ()) v)
    (hopens : Opens v.initialized calls (.error e)) :
    Prepares (making ++ calls.map .call) (.error e)
  | unbegun (hd : u.dialect.undoesDefinitions = true) {making : List Act} {v : Shared}
    {calls : List Call} {c : Connection} {e : Error}
    (hmakes : (u.migrator (watched registered)).ensureTables.Does s making (.ok ()) v)
    (hopens : Opens v.initialized calls (.ok c)) :
    Prepares (making ++ (calls.map .call ++ [.call (.begin c {} (.error e))])) (.error e)
  | refused {making : List Act} {v : Shared} {calls : List Call} {c : Connection}
    {asking : List Act} {e : Error}
    (hmakes : (u.migrator (watched registered)).ensureTables.Does s making (.ok ()) v)
    (hopens : Opens v.initialized calls (.ok c)) (hasks : u.dialect.Asks c asking (.error e)) :
    Prepares (making ++ (calls.map .call ++ (u.begun c ++ asking))) (.error e)
  | granted {making : List Act} {v : Shared} {calls : List Call} {c : Connection}
    {asking : List Act}
    (hmakes : (u.migrator (watched registered)).ensureTables.Does s making (.ok ()) v)
    (hopens : Opens v.initialized calls (.ok c)) (hasks : u.dialect.Asks c asking (.ok ())) :
    Prepares (making ++ (calls.map .call ++ (u.begun c ++ asking))) (.ok c)

/-- One migration on a connection, from its start to its stop, and the statement that books it if it
did not fail. -/
inductive Episode (c : Connection) (direction : Direction) (name : String) :
    List Act → Except Error Unit → Prop
  | failed {migration : Migration Paths} {scope : Scope} {i : Nat} {v w : Shared}
    {calls : List Call} {e : Error} (hmem : (name, migration) ∈ registered)
    (hs : (u.handle scope).binding? = some i) (hholds : v.holds? i = some c)
    (hruns : (migration.way direction (u.handle scope)).Does v (calls.map .call) (.error e) w) :
    Episode c direction name
      (.starts direction name :: (calls.map .call ++ [.stops direction name])) (.error e)
  | booked {migration : Migration Paths} {scope : Scope} {i : Nat} {v w : Shared}
    {calls : List Call} {n : Except Error Node} {booking : List Act}
    {answer : Except Error QueryResult} (hmem : (name, migration) ∈ registered)
    (hs : (u.handle scope).binding? = some i) (hholds : v.holds? i = some c)
    (hruns : (migration.way direction (u.handle scope)).Does v (calls.map .call) (.ok ()) w)
    (hbooks : Books name direction n) (hsends : u.Sends c n booking answer) :
    Episode c direction name
      (.starts direction name :: (calls.map .call ++ .stops direction name :: booking))
      (answer.map fun _ => ())

/-- The acts of a plan that is followed, with the reports and the error. -/
inductive Pursues (c : Connection) (direction : Direction) :
    List String → List Act → List Report → Option Error → Prop
  | done : Pursues c direction [] [] [] none
  | failed {name : String} {rest : List String} {acts : List Act} {e : Error}
    (h : Episode u registered c direction name acts (.error e)) :
    Pursues c direction (name :: rest) acts
      (⟨name, direction, .error⟩ :: rest.map (⟨·, direction, .notExecuted⟩))
      (some (.migration (.failed name e)))
  | next {name : String} {rest : List String} {acts acts' : List Act} {reports : List Report}
    {error : Option Error} (h : Episode u registered c direction name acts (.ok ()))
    (hs : Pursues c direction rest acts' reports error) :
    Pursues c direction (name :: rest) (acts ++ acts') (⟨name, direction, .success⟩ :: reports)
      error

/-- The error of a run comes from another one: it is that one, or tells that undoing it failed. -/
def Stems (e : Error) (error : Option Error) : Prop :=
  error = some e ∨ ∃ second, error = some (.rollback e second)

/-- What a run that has a plan reports, and that the reports tell what it did. -/
structure Tells (c : Connection) (plan : Plan) (acts : List Act) (b : Batch) : Prop where
  names : b.reports.map Report.name = plan.names
  direction : ∀ x ∈ b.reports, x.direction = plan.direction
  distinct : plan.names.Nodup
  statuses : ∃ k rest, b.reports.map Report.status = List.replicate k .success ++ rest ∧
    (rest = [] ∨ ∃ l, rest = .error :: List.replicate l .notExecuted)
  started : started acts = (b.reports.filter Report.ran).map fun x => (x.direction, x.name)
  episodes : ∀ x ∈ b.reports, x.ran = true → ∃ before during after answer,
    acts = before ++ (during ++ after) ∧
    Episode u registered c x.direction x.name during answer ∧
    (x.status = .success ∧ answer = .ok () ∨
      x.status = .error ∧ ∃ e, answer = .error e ∧ Stems (.migration (.failed x.name e)) b.error)
  succeeded : b.error = none → ∀ x ∈ b.reports, x.status = .success

/-- What a run reports that comes to no plan because of an error. -/
structure TellsNothing (e : Error) (acts : List Act) (b : Batch) : Prop where
  reports : b.reports = []
  started : started acts = []
  stems : Stems e b.error

/-- What a run reports, by how far it comes. -/
inductive Reported (target : Target) (acts : List Act) (b : Batch) : Prop
  | unprepared {preparing rest : List Act} {e : Error} (hacts : acts = preparing ++ rest)
    (hprepares : Prepares u registered s preparing (.error e)) (htells : TellsNothing e acts b)
  | unplanned {preparing reading rest : List Act} {c : Connection}
    {answer : Except Error QueryResult} {e : Error} (hacts : acts = preparing ++ (reading ++ rest))
    (hprepares : Prepares u registered s preparing (.ok c))
    (hreads : u.Sends c selectExecuted reading answer)
    (hplan : planned (u.migrator registered).names target answer = .error e)
    (htells : TellsNothing e acts b)
  | planned {preparing reading rest : List Act} {c : Connection}
    {answer : Except Error QueryResult} {plan : Plan}
    (hacts : acts = preparing ++ (reading ++ rest))
    (hprepares : Prepares u registered s preparing (.ok c))
    (hreads : u.Sends c selectExecuted reading answer)
    (hplan : planned (u.migrator registered).names target answer = .ok plan)
    (htells : Tells u registered c plan acts b)

end Vocabulary

/-! ### Plans that are followed -/

section Steps

variable {u : Party} {registered : List (String × Migration Paths)} {s t : Shared} {acts : List Act}
  {scope : Scope} {i : Nat} {c : Connection} {direction : Direction} {name : String}

theorem lookup_ne_none {g : Migrator Paths} (h : name ∈ g.names) :
    g.migrations.lookup name ≠ none := by
  obtain ⟨x, hx, rfl⟩ := List.mem_map.mp h
  intro hnone
  exact absurd (List.lookup_eq_none_iff.mp hnone x hx) (by simp)

theorem stays_of_unmarking (h : ∀ x ∈ registered, x.2.Unmarking u) :
    ∀ x ∈ watched registered, x.2.Stays u :=
  stays_of_mem_watched fun x hx => (h x hx).stays

variable (hunmarking : ∀ x ∈ registered, x.2.Unmarking u)
  (hs : (u.handle scope).binding? = some i)
include hunmarking hs

/-- A step of a batch is an episode of its migration. -/
theorem episode_of_step {r : Except Error Unit} (h : s.holds? i = some c)
    (hname : name ∈ (u.migrator (watched registered)).names)
    (hdoes : ((u.migrator (watched registered)).step (u.handle scope) direction name).Does
      s acts r t) :
    Episode u registered c direction name acts r := by
  obtain ⟨-, ⟨hnone, -⟩ | ⟨migration, ran, v, a, booked, hmem, hran, rfl, hbook⟩⟩ :=
    Migrator.does_step u hs h (stays_of_unmarking hunmarking) hdoes
  · exact absurd hnone (lookup_ne_none hname)
  · -- the migration that is known by the name is a watched one, so its own acts have marks around
    obtain ⟨⟨name', inner⟩, hinner, heq⟩ := List.mem_map.mp hmem
    obtain ⟨rfl, rfl⟩ := Prod.mk.inj heq
    obtain ⟨own, rfl, hown⟩ := Migration.does_watched.mp hran
    obtain ⟨calls, rfl⟩ := (hunmarking _ hinner).calls hs h hown
    obtain ⟨e, rfl, rfl, rfl⟩ | ⟨rfl, n, answer, hbooks, hsends, rfl⟩ := hbook
    · rw [List.append_nil]
      exact .failed hinner hs h hown
    · rw [List.cons_append, List.append_assoc, List.singleton_append]
      exact .booked hinner hs h hown hbooks hsends

/-- A batch pursues its plan. -/
theorem pursues_of_follow {names : List String} {r : Except Error Batch} (h : s.holds? i = some c)
    (hnames : names ⊆ (u.migrator (watched registered)).names)
    (hdoes : ((u.migrator (watched registered)).follow (u.handle scope) direction names).Does
      s acts r t) :
    ∃ b, r = .ok b ∧ Pursues u registered c direction names acts b.reports b.error := by
  induction names generalizing s acts r with
  | nil =>
    obtain ⟨rfl, rfl, -⟩ := (Action.does_pure _).mp hdoes
    exact ⟨_, rfl, .done⟩
  | cons name rest ih =>
    obtain ⟨hname, hrest⟩ := List.cons_subset.mp hnames
    obtain ⟨a, v, before, after, rfl, hstep, hend⟩ := Migrator.does_follow_cons hdoes
    have hv := (Migrator.does_step u hs h (stays_of_unmarking hunmarking) hstep).1
    have hepisode := episode_of_step hunmarking hs h hname hstep
    obtain ⟨e, rfl, rfl, -, rfl⟩ | ⟨rfl, r', hfollow, rfl⟩ := hend
    · rw [List.append_nil]
      exact ⟨_, rfl, .failed hepisode⟩
    · obtain ⟨b, rfl, hpursues⟩ := ih hv hrest hfollow
      exact ⟨_, rfl, .next hepisode hpursues⟩

end Steps

section Pursues

variable {u : Party} {registered : List (String × Migration Paths)} {c : Connection}
  {direction : Direction} {name : String} {names : List String} {acts : List Act}
  {reports : List Report} {error : Option Error}

/-- Nothing but its migration is started in an episode. -/
theorem Episode.started {r : Except Error Unit} (h : Episode u registered c direction name acts r) :
    Migrate.started acts = [(direction, name)] := by
  cases h with
  | failed => simp
  | booked _ _ _ _ _ hsends => simp [hsends.started]

namespace Pursues

theorem map_name (h : Pursues u registered c direction names acts reports error) :
    reports.map Report.name = names := by
  induction h with
  | done => rfl
  | failed h => simp [Function.comp_def]
  | next h hs ih => rw [List.map_cons, ih]

theorem direction_eq (h : Pursues u registered c direction names acts reports error) :
    ∀ x ∈ reports, x.direction = direction := by
  induction h with
  | done => nofun
  | failed h => simp
  | next h hs ih => exact List.forall_mem_cons.mpr ⟨rfl, ih⟩

/-- What is left behind the migrations that succeeded. -/
theorem exists_statuses (h : Pursues u registered c direction names acts reports error) :
    ∃ k rest, reports.map Report.status = List.replicate k .success ++ rest ∧
      (rest = [] ∨ ∃ l, rest = .error :: List.replicate l .notExecuted) := by
  induction h with
  | done => exact ⟨0, [], rfl, .inl rfl⟩
  | @failed name rest acts e h => exact ⟨0, _, rfl, .inr ⟨rest.length, by simp [Function.comp_def]⟩⟩
  | next h hs ih =>
    obtain ⟨k, rest, hstatuses, hrest⟩ := ih
    exact ⟨k + 1, rest, by rw [List.map_cons, hstatuses]; rfl, hrest⟩

theorem started_eq (h : Pursues u registered c direction names acts reports error) :
    started acts = (reports.filter Report.ran).map fun x => (x.direction, x.name) := by
  induction h with
  | done => rfl
  | @failed name rest acts e h =>
    -- the reports behind a failure drop out
    have hnone : (rest.map fun n => (⟨n, direction, .notExecuted⟩ : Report)).filter Report.ran =
        [] := by simp [List.filter_eq_nil_iff, Report.ran]
    rw [List.filter_cons_of_pos rfl, hnone, h.started]
    rfl
  | next h hs ih =>
    rw [started_append, h.started, ih, List.filter_cons_of_pos rfl]
    rfl

theorem exists_episode (h : Pursues u registered c direction names acts reports error) :
    ∀ x ∈ reports, x.ran = true → ∃ before during after answer,
      acts = before ++ (during ++ after) ∧
      Episode u registered c x.direction x.name during answer ∧
      (x.status = .success ∧ answer = .ok () ∨
        x.status = .error ∧ ∃ e, answer = .error e ∧
          error = some (.migration (.failed x.name e))) := by
  induction h with
  | done => nofun
  | @failed name rest acts e h =>
    intro x hx hran
    obtain rfl | hx := List.mem_cons.mp hx
    · exact ⟨[], acts, [], _, by simp, h, .inr ⟨rfl, e, rfl, rfl⟩⟩
    · obtain ⟨n, -, rfl⟩ := List.mem_map.mp hx
      cases hran
  | @next name rest acts acts' reports error h hs ih =>
    intro x hx hran
    obtain rfl | hx := List.mem_cons.mp hx
    · exact ⟨[], acts, acts', _, rfl, h, .inl ⟨rfl, rfl⟩⟩
    · obtain ⟨before, during, after, answer, rfl, hepisode, hstatus⟩ := ih x hx hran
      exact ⟨acts ++ before, during, after, answer, (List.append_assoc ..).symm, hepisode, hstatus⟩

theorem succeeded (h : Pursues u registered c direction names acts reports error)
    (hnone : error = none) : ∀ x ∈ reports, x.status = .success := by
  induction h with
  | done => nofun
  | failed h => cases hnone
  | next h hs ih => exact List.forall_mem_cons.mpr ⟨rfl, ih hnone⟩

/-- A plan that was pursued, between acts that start nothing, is told by its reports. -/
theorem tells {plan : Plan} {b : Batch} {before after : List Act}
    (h : Pursues u registered c plan.direction plan.names acts b.reports error)
    (hdistinct : plan.names.Nodup) (hbefore : started before = []) (hafter : started after = [])
    (hstems : ∀ e, error = some e → Stems e b.error) :
    Tells u registered c plan (before ++ (acts ++ after)) b where
  names := h.map_name
  direction := h.direction_eq
  distinct := hdistinct
  statuses := h.exists_statuses
  started := by
    rw [started_append, started_append, hbefore, hafter, h.started_eq]
    simp
  episodes := by
    intro x hx hran
    obtain ⟨before', during, after', answer, rfl, hepisode, hstatus⟩ := h.exists_episode x hx hran
    refine ⟨before ++ before', during, after' ++ after, answer, by simp, hepisode, ?_⟩
    exact hstatus.imp_right fun ⟨hfailed, e, hanswer, he⟩ => ⟨hfailed, e, hanswer, hstems _ he⟩
  succeeded := by
    intro hnone
    refine h.succeeded (Option.eq_none_iff_forall_ne_some.mpr fun e he => ?_)
    obtain h | ⟨second, h⟩ := hstems e he <;> cases hnone.symm.trans h

end Pursues

end Pursues

/-! ### Runs -/

section Run

variable {u : Party} {registered : List (String × Migration Paths)} {s t v w : Shared}
  {acts : List Act} {c : Connection} {target : Target}

theorem stems_undone (e : Error) (back : Except Error Unit) : Stems e (some (e.undone back)) := by
  cases back with
  | ok a => exact .inl rfl
  | error second => exact .inr ⟨second, rfl⟩

theorem stems_of_settles {outcome : Except Error Batch} {ending : List Call}
    {ended : Except Error Unit} {e : Error} (hsettles : Settles c (unsettled outcome) ending ended)
    (he : fault? outcome = some e) : Stems e (error? ended) := by
  rw [unsettled, he] at hsettles
  cases hsettles with
  | undone e back => exact stems_undone e back

theorem Prepares.started {answer : Except Error Connection}
    (h : Prepares u registered s acts answer) : Migrate.started acts = [] := by
  cases h with
  | untabled hmakes => exact Migrator.started_ensureTables hmakes
  | unconnected hmakes => simp [Migrator.started_ensureTables hmakes]
  | unbegun _ hmakes => simp [Migrator.started_ensureTables hmakes]
  | refused hmakes _ hasks =>
    simp [Migrator.started_ensureTables hmakes, u.started_begun, hasks.started]
  | granted hmakes _ hasks =>
    simp [Migrator.started_ensureTables hmakes, u.started_begun, hasks.started]

variable (hunmarking : ∀ x ∈ registered, x.2.Unmarking u)
include hunmarking

/-- What comes of the batch of a run, behind which nothing is started. -/
theorem reported_of_batch {preparing following after : List Act} {scope : Scope} {i : Nat}
    {outcome : Except Error Batch} {error : Option Error}
    (hprepares : Prepares u registered s preparing (.ok c))
    (hs : (u.handle scope).binding? = some i) (hholds : v.holds? i = some c)
    (hbatch : ((u.migrator (watched registered)).batch (u.handle scope) target).Does
      v following outcome w)
    (hafter : started after = []) (hstems : ∀ e, fault? outcome = some e → Stems e error) :
    Reported u registered s target (preparing ++ (following ++ after))
      ⟨reports outcome, error⟩ := by
  obtain ⟨answer, reading, following, hreads, rfl, hend⟩ :=
    Migrator.does_batch u hs hholds hbatch
  rw [List.append_assoc]
  obtain ⟨e, hplan, rfl, rfl, -⟩ | ⟨plan, hplan, hfollow⟩ := hend
  · refine .unplanned rfl hprepares hreads (u.names_watched registered ▸ hplan) ⟨rfl, ?_, ?_⟩
    · simp [hprepares.started, hreads.started, hafter]
    · exact hstems e rfl
  · -- a plan has registered names only, so each of its steps finds its migration
    obtain ⟨done, goal, -, -, -, -, -, hleads⟩ := Standing.exists_of_planned hplan
    have hnodup : (u.migrator (watched registered)).names.Nodup :=
      (u.names_sorted _).imp fun h => h.ne
    obtain ⟨b, rfl, hpursues⟩ := pursues_of_follow hunmarking hs hholds hleads.subset hfollow
    refine .planned rfl hprepares hreads (u.names_watched registered ▸ hplan) ?_
    rw [← List.append_assoc]
    exact Pursues.tells (b := ⟨b.reports, error⟩) hpursues (hleads.nodup hnodup)
      (by simp [hprepares.started, hreads.started]) hafter hstems

theorem reported_of_locked {making : List Act} {b : Batch}
    (hmakes : (u.migrator (watched registered)).ensureTables.Does s making (.ok ()) v)
    (h : Migrator.Locked u (watched registered) target v.initialized acts b) :
    Reported u registered s target (making ++ acts) b := by
  have hmade := Migrator.started_ensureTables hmakes
  have hbegun : u.dialect.undoesDefinitions = true → ∀ c,
      u.begun c = [.call (.begin c {} (.ok ()))] := fun hd c => by rw [Party.begun, if_pos hd]
  have hunbegun : u.dialect.undoesDefinitions = false → ∀ c, u.begun c = [] :=
    fun hd c => by rw [Party.begun, if_neg (by rw [hd]; exact Bool.false_ne_true)]
  cases h with
  | unconnected hopens =>
    exact .unprepared (List.append_nil _).symm (.unconnected hmakes hopens)
      ⟨rfl, by simp [hmade], .inl rfl⟩
  | @unbegun hd calls c e hopens =>
    have hacts :
        making ++ (calls.map .call ++ [.call (.begin c {} (.error e)), .call (.release c)]) =
          making ++ (calls.map .call ++ [.call (.begin c {} (.error e))]) ++ [.call (.release c)] :=
      by simp
    exact .unprepared hacts (.unbegun hd hmakes hopens) ⟨rfl, by simp [hmade], .inl rfl⟩
  | @refused hd calls c asking e back hopens hasks =>
    have hacts : making ++ (calls.map .call ++ .call (.begin c {} (.ok ())) ::
        (asking ++ [.call (.rollback c back), .call (.release c)])) =
        making ++ (calls.map .call ++ (u.begun c ++ asking)) ++
          [.call (.rollback c back), .call (.release c)] := by simp [hbegun hd]
    exact .unprepared hacts (.refused hmakes hopens hasks)
      ⟨rfl, by simp [hmade, hasks.started], stems_undone e back⟩
  | @denied hd calls c asking e hopens hasks =>
    have hacts : making ++ (calls.map .call ++ (asking ++ [.call (.release c)])) =
        making ++ (calls.map .call ++ (u.begun c ++ asking)) ++ [.call (.release c)] := by
      simp [hunbegun hd]
    exact .unprepared hacts (.refused hmakes hopens hasks)
      ⟨rfl, by simp [hmade, hasks.started], .inl rfl⟩
  | @settled hd calls c asking i v' w batch outcome ending ended hopens hasks hholds hbatch
      hsettles =>
    have hafter : started (ending.map .call ++ [.call (.release c)]) = [] := by simp
    have hreported := reported_of_batch hunmarking (.granted hmakes hopens hasks) rfl hholds hbatch
      hafter fun e he => stems_of_settles hsettles he
    simpa [hbegun hd] using hreported
  | @unlocked hd calls c asking i v' w batch outcome giving given hopens hasks hholds hbatch
      hgives =>
    have hafter : started (giving ++ [.call (.release c)]) = [] := by simp [hgives.started]
    have hstems : ∀ e, fault? outcome = some e →
        Stems e ((fault? outcome).or (error? given)) := fun e he => .inl (by rw [he]; rfl)
    have hreported := reported_of_batch hunmarking (.granted hmakes hopens hasks) rfl hholds hbatch
      hafter hstems
    simpa [hunbegun hd] using hreported

end Run

end Migrate

namespace Migrator

/-- A run always comes to an answer.  Without a plan, because its tables, its connection, its
transaction, the lock, the history or the plan failed, it reports nothing and starts nothing.  With
a plan it reports all migrations of the plan: those that succeeded, the one that failed, and those
that were not executed.  The first two kinds were started, once each and in order, and were booked
before the next one if they succeeded.  The error names the migration that failed, and without an
error all succeeded. -/
theorem run_reported {u : Party} {registered : List (String × Migration Paths)}
    (hunmarking : ∀ x ∈ registered, x.2.Unmarking u) {target : Target} {s t : Shared}
    {acts : List Act} {r : Except Error Batch}
    (hdoes : ((u.migrator (watched registered)).run target).Does s acts r t) :
    ∃ b, r = .ok b ∧ Reported u registered s target acts b := by
  obtain ⟨making, made, v, rest, rfl, hmakes, ⟨e, rfl, rfl, rfl⟩ | ⟨rfl, outcome, rfl, hbatch⟩⟩ :=
    does_run_cases u hdoes
  · refine ⟨_, rfl, .unprepared rfl (.untabled hmakes) ⟨rfl, ?_, .inl rfl⟩⟩
    simp [started_ensureTables hmakes]
  · exact ⟨_, rfl, reported_of_locked hunmarking hmakes
      (does_lockedBatch u (stays_of_unmarking hunmarking) hbatch)⟩

/-- A migration of one statement, executed and reported. -/
theorem run_reported_mysql :
    let u : Party := { dialect := .mysql }
    let registered : List (String × Migration Paths) :=
      [("a", .statements [⟨.raw ["create table t (id int)"] []⟩] [])]
    let answer : Except Error Batch := .ok ⟨[⟨"a", .up, .success⟩], none⟩
    ∃ acts t, (∀ x ∈ registered, x.2.Unmarking u) ∧
      ((u.migrator (watched registered)).run .latest).Does { initialized := true } acts answer t ∧
      ∃ b, answer = .ok b ∧ Reported u registered { initialized := true } .latest acts b := by
  obtain ⟨q, hq⟩ : ∃ q, Node.compile .mysql ⟨.raw ["create table t (id int)"] []⟩ = .ok q :=
    exists_of_isOk (by decide +kernel)
  -- nothing else is to be known of the statement
  generalize (⟨.raw ["create table t (id int)"] []⟩ : Node) = n at hq ⊢
  intro u registered answer
  have hunmarking : ∀ x ∈ registered, x.2.Unmarking u := by
    intro x hx
    obtain rfl := List.mem_singleton.mp hx
    exact Migration.unmarking_statements u _ _
  have hbound : (Shared.bind { initialized := true } ⟨some ⟨0⟩, false⟩).holds? 0 = some ⟨0⟩ := rfl
  have hran := Migration.does_watched_single u (.connection 0) "a" rfl hbound hq (a := .ok {}) rfl
  obtain ⟨_, _, _, _, _, -, -, -, -, -, hdoes⟩ :=
    exists_does_run_mysql "a" "" (.watched "a" (.statements [n] [])) (s := { initialized := true })
      rfl rfl hran hbound
  exact ⟨_, _, hunmarking, hdoes, run_reported hunmarking hdoes⟩

end Migrator

end SqlTree
