import SqlTree.Proofs.Database.Phase
import SqlTree.Proofs.Migrate.Archive
import SqlTree.Proofs.Migrate.Locking

/-!
# Standings of migration runs

Where a run stands between its acts: how many migrations are executed, which one runs, and what it
has of its connection, its transaction and the lock.  Every run goes from standing to standing
(`Standing.comes_run`).
-/

namespace SqlTree

open Migrate

inductive Standing where
  /-- The run has no connection. -/
  | away
  /-- It has a connection, maybe in a transaction, and maybe with the lock granted. -/
  | having (c : Connection) (begun granted : Bool)
  /-- Its batch started with `start` executed migrations, and now has executed `k`. -/
  | steady (c : Connection) (start goal k : Nat)
  /-- The next migration runs, with what became of its own transaction. -/
  | running (c : Connection) (start goal k : Nat) (phase : Phase)
  /-- The next migration ran, and is not booked. -/
  | booking (c : Connection) (start goal k : Nat)

namespace Migrate

/-- The migration to run next on the way to a goal. -/
def next? (names : List String) (k goal : Nat) : Option (Direction × String) :=
  if k < goal then names[k]?.map (.up, ·) else if goal < k then names[k - 1]?.map (.down, ·)
  else none

/-- The position behind the next migration. -/
def moved (k goal : Nat) : Nat := if k < goal then k + 1 else k - 1

end Migrate

/-- Calls that leave the books, the lock and the connection they are made on to the batch; they may
begin and end transactions where the batch has none. -/
def Register.Aloof {u : Party} (reg : Register u) (c : Connection) : Call → Prop
  | .acquire (.ok c') => c' ≠ c
  | .release c' => c' ≠ c
  | .execute _ q _ => reg.kind? q.sql q.parameters = none
  | .stream _ q _ _ => reg.kind? q.sql q.parameters = none
  | .begin c' _ _ => u.dialect.undoesDefinitions = true → c' ≠ c
  | .commit c' _ => u.dialect.undoesDefinitions = true → c' ≠ c
  | .rollback c' _ => u.dialect.undoesDefinitions = true → c' ≠ c
  | _ => True

namespace Standing

variable (u : Party) (reg : Register u) (names : List String) (target : Target)

/-- The standing in which a batch may read the history. -/
def ready (c : Connection) : Standing :=
  .having c u.dialect.undoesDefinitions u.dialect.lockStatement?.isSome

/-- Where a run is when it has asked for a connection. -/
def opened : Except Error Connection → Standing
  | .ok c => .having c false false
  | .error _ => .away

/-- Where a run is when it has asked for the lock. -/
def answered (c : Connection) : Except Error Unit → Standing
  | .ok _ => ready u c
  | .error _ => .having c u.dialect.undoesDefinitions false

/-- The run has its connection and its transaction, and no migration runs. -/
inductive Rests (c : Connection) : Standing → Prop
  | having (granted : Bool) : Rests c (.having c u.dialect.undoesDefinitions granted)
  | steady (start goal k : Nat) : Rests c (.steady c start goal k)
  | booking (start goal k : Nat) : Rests c (.booking c start goal k)

/-- An act of a batch. -/
inductive Inside : Standing → Act → Standing → Prop
  | unread {c : Connection} {q : Compiled} {a : Except Error QueryResult} {e : Error}
    (hq : reg.kind? q.sql q.parameters = some .read)
    (hplan : planned names target (u.receive a) = .error e) :
    Inside (ready u c) (.call (.execute c q a)) (ready u c)
  | read {c : Connection} {q : Compiled} {a : Except Error QueryResult} {done : List Executed}
    {goal : Nat} (hq : reg.kind? q.sql q.parameters = some .read)
    (hdone : history (u.receive a) = .ok done) (hbegins : done.map Executed.name <+: names)
    (hgoal : target.goal? names done.length = some goal) (hle : goal ≤ names.length) :
    Inside (ready u c) (.call (.execute c q a)) (.steady c done.length goal done.length)
  | starts {c : Connection} {start goal k : Nat} {direction : Direction} {name : String}
    (hnext : next? names k goal = some (direction, name)) :
    Inside (.steady c start goal k) (.starts direction name) (.running c start goal k .idle)
  | runs {c : Connection} {start goal k : Nat} {phase : Phase} {x : Call} (hx : reg.Aloof c x) :
    Inside (.running c start goal k phase) (.call x)
      (.running c start goal k (Call.nextPhase c phase x))
  | stops {c : Connection} {start goal k : Nat} {direction : Direction} {name : String}
    (hnext : next? names k goal = some (direction, name)) :
    Inside (.running c start goal k .idle) (.stops direction name) (.booking c start goal k)
  | unbooked {c : Connection} {start goal k : Nat} {direction : Direction} {name : String}
    {q : Compiled} {e : Error} (hnext : next? names k goal = some (direction, name))
    (hq : reg.kind? q.sql q.parameters = some (.booked direction name)) :
    Inside (.booking c start goal k) (.call (.execute c q (.error e))) (.booking c start goal k)
  | booked {c : Connection} {start goal k : Nat} {direction : Direction} {name : String}
    {q : Compiled} {r : QueryResult} (hnext : next? names k goal = some (direction, name))
    (hq : reg.kind? q.sql q.parameters = some (.booked direction name)) :
    Inside (.booking c start goal k) (.call (.execute c q (.ok r)))
      (.steady c start goal (moved k goal))

/-- An act of a run that does not make what its batch did final. -/
inductive Open : Standing → Act → Standing → Prop
  | inside {standing standing' : Standing} {x : Act}
    (h : Inside u reg names target standing x standing') : Open standing x standing'
  | init (a : Except Error Unit) : Open .away (.call (.init a)) .away
  | acquires (a : Except Error Connection) : Open .away (.call (.acquire a)) (opened a)
  | released (c : Connection) : Open (.having c false false) (.call (.release c)) .away
  | tables {c : Connection} {q : Compiled} (a : Except Error QueryResult)
    (hq : reg.kind? q.sql q.parameters = none) :
    Open (.having c false false) (.call (.execute c q a)) (.having c false false)
  | unbegun (hd : u.dialect.undoesDefinitions = true) (c : Connection) (s : TransactionSettings)
    (e : Error) :
    Open (.having c false false) (.call (.begin c s (.error e))) (.having c false false)
  | begun (hd : u.dialect.undoesDefinitions = true) (c : Connection) (s : TransactionSettings) :
    Open (.having c false false) (.call (.begin c s (.ok ()))) (.having c true false)
  | denied {c : Connection} {q : Compiled} {a : Except Error QueryResult} {e : Error}
    (hq : reg.kind? q.sql q.parameters = some .lock) (ha : u.dialect.verdict a = .error e) :
    Open (.having c u.dialect.undoesDefinitions false) (.call (.execute c q a))
      (.having c u.dialect.undoesDefinitions false)
  | granted {c : Connection} {q : Compiled} {a : Except Error QueryResult}
    (hq : reg.kind? q.sql q.parameters = some .lock) (ha : u.dialect.verdict a = .ok ()) :
    Open (.having c u.dialect.undoesDefinitions false) (.call (.execute c q a))
      (.having c u.dialect.undoesDefinitions true)
  | uncommitted (hd : u.dialect.undoesDefinitions = true) (c : Connection) (start goal : Nat)
    (e : Error) : Open (.steady c start goal goal) (.call (.commit c (.error e)))
      (.steady c start goal goal)
  | undone (hd : u.dialect.undoesDefinitions = true) {standing : Standing} {c : Connection}
    (hrests : standing.Rests u c) (a : Except Error Unit) :
    Open standing (.call (.rollback c a)) (.having c false false)

/-- The act of a run that makes what its batch did final. -/
inductive Closes : Standing → Act → Standing → Prop
  | committed (hd : u.dialect.undoesDefinitions = true) (c : Connection) (start goal : Nat) :
    Closes (.steady c start goal goal) (.call (.commit c (.ok ()))) (.having c false false)
  | given (hd : u.dialect.undoesDefinitions = false) {standing : Standing} {c : Connection}
    {q : Compiled} (hrests : standing.Rests u c)
    (hq : reg.kind? q.sql q.parameters = some .unlock) (a : Except Error QueryResult) :
    Closes standing (.call (.execute c q a)) (.having c false false)
  | left (hd : u.dialect.undoesDefinitions = false) (hunlock : u.dialect.unlockStatement? = none)
    {standing : Standing} {c : Connection} (hrests : standing.Rests u c) :
    Closes standing (.call (.release c)) .away

/-- An act of a run. -/
def Next (standing : Standing) (x : Act) (standing' : Standing) : Prop :=
  Open u reg names target standing x standing' ∨ Closes u reg standing x standing'

/-- From standing to standing, by any number of acts. -/
inductive Runs (next : Standing → Act → Standing → Prop) : Standing → List Act → Standing → Prop
  | nil (standing : Standing) : Runs next standing [] standing
  | cons {standing standing' standing'' : Standing} {x : Act} {acts : List Act}
    (h : next standing x standing') (hs : Runs next standing' acts standing'') :
    Runs next standing (x :: acts) standing''

namespace Runs

variable {next next' : Standing → Act → Standing → Prop} {xs ys : List Act} {x : Act}
  {standing standing' standing'' : Standing}

theorem single (h : next standing x standing') : Runs next standing [x] standing' :=
  .cons h (.nil standing')

theorem append (h : Runs next standing xs standing') (h' : Runs next standing' ys standing'') :
    Runs next standing (xs ++ ys) standing'' := by
  induction h with
  | nil => exact h'
  | cons hx _ ih => exact .cons hx (ih h')

theorem mono (h : Runs next standing xs standing') (hnext : ∀ {s x t}, next s x t → next' s x t) :
    Runs next' standing xs standing' := by
  induction h with
  | nil => exact .nil _
  | cons hx _ ih => exact .cons (hnext hx) ih

end Runs

section Comes

variable {u : Party} {reg : Register u} {names : List String} {target : Target}

/-- The acts of a run, and the error in its answer.  Without an error the run made final what
brought it to its goal.  With an error nothing is final where a transaction undoes it. -/
inductive Comes (u : Party) (reg : Register u) (names : List String) (target : Target) :
    List Act → Option Error → Prop
  | nothing {acts : List Act} {e : Error} (h : Runs (Open u reg names target) .away acts .away) :
    Comes u reg names target acts (some e)
  | final {before after : List Act} {x : Act} {standing standing' : Standing}
    {error : Option Error} (hbefore : Runs (Open u reg names target) .away before standing)
    (hcloses : Closes u reg standing x standing')
    (hafter : Runs (Open u reg names target) standing' after .away)
    (hgoal : error = none → ∃ c start goal, standing = .steady c start goal goal)
    (hundoes : u.dialect.undoesDefinitions = true → error = none) :
    Comes u reg names target (before ++ x :: after) error

theorem Comes.behind {before acts : List Act} {error : Option Error}
    (hbefore : Runs (Open u reg names target) .away before .away)
    (h : Comes u reg names target acts error) :
    Comes u reg names target (before ++ acts) error := by
  cases h with
  | nothing h => exact .nothing (hbefore.append h)
  | final hbefore' hcloses hafter hgoal hundoes =>
    rw [← List.append_assoc]
    exact .final (hbefore.append hbefore') hcloses hafter hgoal hundoes

/-- The acts of a run go from standing to standing. -/
theorem Comes.runs {acts : List Act} {error : Option Error}
    (h : Comes u reg names target acts error) :
    Runs (Next u reg names target) .away acts .away := by
  cases h with
  | nothing hruns => exact hruns.mono .inl
  | final hbefore hcloses hafter =>
    exact (hbefore.mono .inl).append (.cons (.inr hcloses) (hafter.mono .inl))

end Comes

end Standing

/-! ### Migrations that are watched -/

namespace Migration

/-- A migration whose beginning and end are acts. -/
def watched (name : String) (migration : Migration Paths) : Migration Paths :=
  let way (direction : Direction) (db : Database Paths) : Action Paths Unit := do
    Action.tell (Paths.note (.starts direction name))
    let r ← (migration.way direction db).attempt
    Action.tell (Paths.note (.stops direction name))
    Action.ofExcept r
  { up := way .up, down := way .down }

/-- A migration that stays aloof of the batch it runs in, and ends the transactions it begins. -/
structure Keeps {u : Party} (reg : Register u) (migration : Migration Paths) : Prop where
  stays : migration.Stays u
  aloof {direction : Direction} {scope : Scope} {i : Nat} {c : Connection} {s t : Shared}
    {acts : List Act} {r : Except Error Unit} (hs : (u.handle scope).binding? = some i)
    (h : s.holds? i = some c)
    (hdoes : (migration.way direction (u.handle scope)).Does s acts r t) :
    ∃ calls, acts = calls.map .call ∧ (∀ x ∈ calls, reg.Aloof c x) ∧ Call.phase c calls = .idle

variable {name : String} {migration : Migration Paths} {direction : Direction} {s t : Shared}
  {acts : List Act} {r : Except Error Unit}

theorem does_watched {db : Database Paths} :
    ((migration.watched name).way direction db).Does s acts r t ↔
      ∃ inner, acts = .starts direction name :: (inner ++ [.stops direction name]) ∧
        (migration.way direction db).Does s inner r t := by
  have hway : (migration.watched name).way direction db = (do
      Action.tell (Paths.note (.starts direction name))
      let r ← (migration.way direction db).attempt
      Action.tell (Paths.note (.stops direction name))
      Action.ofExcept r) := by
    cases direction <;> rfl
  rw [hway]
  constructor
  · intro hdoes
    obtain ⟨_, _, after, rfl, rfl, hruns⟩ := Action.does_bind_tell.mp hdoes
    obtain ⟨r', v, inner, after, rfl, hinner, hstops⟩ := Action.does_bind_attempt.mp hruns
    obtain ⟨_, _, after, rfl, rfl, hend⟩ := Action.does_bind_tell.mp hstops
    obtain ⟨rfl, rfl, rfl⟩ := (Action.does_ofExcept _).mp hend
    exact ⟨inner, rfl, hinner⟩
  · rintro ⟨inner, rfl, hinner⟩
    have hend : (Action.ofExcept r : Action Paths Unit).Does t [] r t :=
      (Action.does_ofExcept r).mpr ⟨rfl, rfl, rfl⟩
    refine Action.does_bind_tell.mpr ⟨(), [.starts direction name], _, rfl, rfl, ?_⟩
    refine Action.does_bind_attempt.mpr ⟨r, t, inner, _, rfl, hinner, ?_⟩
    exact Action.does_bind_tell.mpr ⟨(), [.stops direction name], [], rfl, rfl, hend⟩

/-- A single statement that is answered, between its marks. -/
theorem does_watched_single (u : Party) (scope : Scope) (name : String) {i : Nat} {c : Connection}
    (hs : (u.handle scope).binding? = some i) (h : s.holds? i = some c) {n : Node} {q : Compiled}
    (hn : u.compile n = .ok q) {a : Except Error QueryResult} {r : QueryResult}
    (ha : u.receive a = .ok r) :
    (((statements [n] []).watched name).way .up (u.handle scope)).Does s
      [.starts .up name, .call (.execute c q a), .stops .up name] (.ok ()) s :=
  does_watched.mpr ⟨_, rfl, Database.does_runAll_single u hs h hn ha⟩

/-- Statements that the database takes for none of a migrator keep out of its way. -/
theorem keeps_statements {u : Party} (reg : Register u) {ups downs : List Node}
    (h : ∀ n ∈ ups ++ downs, ∀ q, u.compile n = .ok q → reg.kind? q.sql q.parameters = none) :
    (statements ups downs).Keeps reg where
  stays := stays_statements u ups downs
  aloof {direction scope i c s t acts r} hs hholds hdoes := by
    obtain ⟨ns, hns, heq⟩ := way_statements ups downs direction (u.handle scope)
    rw [heq] at hdoes
    obtain ⟨-, calls, rfl, hcalls⟩ := Database.does_runAll u hs hholds hdoes
    refine ⟨calls, rfl, fun x hx => ?_, Call.phase_append_quiet (fun x hx => ?_) c []⟩
    · obtain ⟨n, q, a, hn, hq, rfl⟩ := hcalls x hx
      exact h n (hns hn) q hq
    · obtain ⟨n, q, a, -, -, rfl⟩ := hcalls x hx
      rfl

theorem keeps_single {u : Party} {reg : Register u} {n : Node} {q : Compiled}
    (hq : u.compile n = .ok q) (h : reg.kind? q.sql q.parameters = none) :
    (statements [n] []).Keeps reg := by
  refine keeps_statements reg fun n' hn q' hq' => ?_
  obtain rfl := List.mem_singleton.mp hn
  obtain rfl := Except.ok.inj (hq.symm.trans hq')
  exact h

/-- Watching a migration does not move its connection. -/
theorem Stays.watched {u : Party} (h : migration.Stays u) (name : String) :
    (migration.watched name).Stays u := by
  intro direction scope i c s acts r t hs hholds hdoes
  obtain ⟨inner, rfl, hinner⟩ := does_watched.mp hdoes
  exact h direction scope i c s inner r t hs hholds hinner

end Migration

/-- Migrations registered to be watched. -/
def watched (registered : List (String × Migration Paths)) : List (String × Migration Paths) :=
  registered.map fun x => (x.1, x.2.watched x.1)

theorem stays_of_mem_watched {u : Party} {registered : List (String × Migration Paths)}
    (hstays : ∀ x ∈ registered, x.2.Stays u) : ∀ x ∈ watched registered, x.2.Stays u := by
  intro x hx
  obtain ⟨y, hy, rfl⟩ := List.mem_map.mp hx
  exact (hstays y hy).watched y.1

theorem Party.names_watched (u : Party) (registered : List (String × Migration Paths)) :
    (u.migrator (watched registered)).names = (u.migrator registered).names := by
  refine u.names_eq_of_mem_iff _ fun n => ?_
  rw [watched, List.map_map]
  rfl

/-! ### Runs go from standing to standing -/

namespace Standing

variable {u : Party} {reg : Register u} {names : List String} {target : Target}
  {registered : List (String × Migration Paths)} {scope : Scope} {i : Nat} {c : Connection}
  {s t : Shared} {acts : List Act} {start goal k : Nat}

theorem runs_aloof {calls : List Call} (h : ∀ x ∈ calls, reg.Aloof c x) (phase : Phase) :
    Runs (Inside u reg names target) (.running c start goal k phase) (calls.map .call)
      (.running c start goal k (calls.foldl (Call.nextPhase c) phase)) := by
  induction calls generalizing phase with
  | nil => exact .nil _
  | cons x calls ih =>
    obtain ⟨hx, hcalls⟩ := List.forall_mem_cons.mp h
    exact .cons (.runs hx) (ih hcalls _)

/-- The next migration runs, from its beginning to its end. -/
theorem runs_watched {direction : Direction} {name : String} {migration : Migration Paths}
    {r : Except Error Unit} (hnext : next? names k goal = some (direction, name))
    (hkeeps : migration.Keeps reg) (hs : (u.handle scope).binding? = some i)
    (h : s.holds? i = some c)
    (hdoes : ((migration.watched name).way direction (u.handle scope)).Does s acts r t) :
    Runs (Inside u reg names target) (.steady c start goal k) acts (.booking c start goal k) := by
  obtain ⟨inner, rfl, hinner⟩ := Migration.does_watched.mp hdoes
  obtain ⟨calls, rfl, haloof, hphase⟩ := hkeeps.aloof hs h hinner
  refine .cons (.starts hnext) ((runs_aloof haloof .idle).append (.single ?_))
  rw [show calls.foldl (Call.nextPhase c) .idle = .idle from hphase]
  exact .stops hnext

variable (hkeeps : ∀ x ∈ registered, x.2.Keeps reg) (hs : (u.handle scope).binding? = some i)
include hkeeps hs

/-- A step that succeeds moves the batch on. -/
theorem runs_step (target : Target) (start : Nat) {direction : Direction} {name : String}
    {r : Except Error Unit}
    (hnext : next? names k goal = some (direction, name)) (h : s.holds? i = some c)
    (hdoes : ((u.migrator (watched registered)).step (u.handle scope) direction name).Does
      s acts r t) :
    ∃ standing, Runs (Inside u reg names target) (.steady c start goal k) acts standing ∧
      standing.Rests u c ∧
        (r = .ok () → standing = .steady c start goal (moved k goal)) := by
  have hstays := stays_of_mem_watched fun x hx => (hkeeps x hx).stays
  obtain ⟨-, ⟨-, rfl, e, rfl⟩ | ⟨migration, ran, v, a, booked, hmem, hran, rfl, hbook⟩⟩ :=
    Migrator.does_step u hs h hstays hdoes
  · exact ⟨_, .nil _, .steady _ _ _, nofun⟩
  · obtain ⟨⟨name', inner⟩, hinner, heq⟩ := List.mem_map.mp hmem
    obtain ⟨rfl, rfl⟩ := Prod.mk.inj heq
    have hruns : Runs (Inside u reg names target) (.steady c start goal k) ran
        (.booking c start goal k) := runs_watched hnext (hkeeps _ hinner) hs h hran
    obtain ⟨e, -, rfl, rfl⟩ | ⟨-, n, answer, hbooks, hsends, rfl⟩ := hbook
    · rw [List.append_nil]
      exact ⟨_, hruns, .booking _ _ _, nofun⟩
    · cases hsends with
      | unsent hn =>
        rw [List.append_nil]
        exact ⟨_, hruns, .booking _ _ _, nofun⟩
      | sent hn a =>
        have hq := reg.books hbooks hn
        cases a with
        | error e => exact ⟨_, hruns.append (.single (.unbooked hnext hq)), .booking _ _ _, nofun⟩
        | ok r => exact ⟨_, hruns.append (.single (.booked hnext hq)), .steady _ _ _, fun _ => rfl⟩

/-- A batch that does not fail comes to the end of its plan. -/
theorem runs_follow {direction : Direction} {rest : List String} {r : Except Error Batch}
    (hleads : Plan.Leads names k goal ⟨direction, rest⟩) (hk : k ≤ names.length)
    (hgoal : goal ≤ names.length) (h : s.holds? i = some c)
    (hdoes : ((u.migrator (watched registered)).follow (u.handle scope) direction rest).Does
      s acts r t) :
    ∃ standing, Runs (Inside u reg names target) (.steady c start goal k) acts standing ∧
      standing.Rests u c ∧
        (fault? r = none → standing = .steady c start goal goal) := by
  have hstays := stays_of_mem_watched fun x hx => (hkeeps x hx).stays
  induction rest generalizing k direction s acts r with
  | nil =>
    obtain ⟨rfl, rfl, rfl⟩ := (Action.does_pure _).mp hdoes
    obtain rfl := hleads.eq_of_nil hk hgoal
    exact ⟨_, .nil _, .steady _ _ _, fun _ => rfl⟩
  | cons name rest ih =>
    obtain ⟨a, v, before, after, rfl, hstep, hrest⟩ := Migrator.does_follow_cons hdoes
    have hv := (Migrator.does_step u hs h hstays hstep).1
    obtain ⟨hnext, hmoved, hleads'⟩ : next? names k goal = some (direction, name) ∧
        moved k goal ≤ names.length ∧
          Plan.Leads names (moved k goal) goal ⟨direction, rest⟩ := by
      obtain ⟨rfl, hlt, hname, hleads'⟩ | ⟨rfl, hlt, hname, hleads'⟩ := hleads.cons hk
      · rw [next?, moved, if_pos hlt, if_pos hlt, hname]
        exact ⟨rfl, hlt.trans_le hgoal, hleads'⟩
      · have hnot : ¬k < goal := by omega
        rw [next?, moved, if_neg hnot, if_neg hnot, if_pos hlt, hname]
        exact ⟨rfl, by omega, hleads'⟩
    obtain ⟨standing, hruns, hrests, hok⟩ := runs_step hkeeps hs target start hnext h hstep
    obtain ⟨e, -, rfl, -, rfl⟩ | ⟨rfl, r', hfollow, rfl⟩ := hrest
    · rw [List.append_nil]
      exact ⟨standing, hruns, hrests, nofun⟩
    · obtain rfl := hok rfl
      obtain ⟨standing, hruns', hrests', hend⟩ := ih hleads' hmoved hv hfollow
      refine ⟨standing, hruns.append hruns', hrests', fun hfault => hend ?_⟩
      cases r' with
      | error e => cases hfault
      | ok b => exact hfault

omit hkeeps hs in
/-- A plan is made of a history that is a prefix of the names, and of a target with a goal. -/
theorem exists_of_planned {answer : Except Error QueryResult} {plan : Plan}
    (h : planned names target answer = .ok plan) :
    ∃ done goal, history answer = .ok done ∧ done.map Executed.name <+: names ∧
      done.length ≤ names.length ∧ target.goal? names done.length = some goal ∧
      goal ≤ names.length ∧ Plan.Leads names done.length goal plan := by
  obtain ⟨done, hdone, hcheck, hplan⟩ := planned_eq_ok_iff.mp h
  have hbegins := checkHistory_iff.mp hcheck
  have hle : done.length ≤ names.length := by simpa using hbegins.length_le
  obtain ⟨goal, hgoal, hgoal', hleads⟩ := Plan.leads_of hle hplan
  exact ⟨done, goal, hdone, hbegins, hle, hgoal, hgoal', hleads⟩

/-- What a batch does, from reading the history on; if it does not fail it reaches its goal. -/
theorem runs_batch {r : Except Error Batch} (h : s.holds? i = some c)
    (hdoes : ((u.migrator (watched registered)).batch (u.handle scope) target).Does s acts r t) :
    ∃ standing,
      Runs (Inside u reg (u.migrator (watched registered)).names target) (ready u c) acts
        standing ∧
      standing.Rests u c ∧
        (fault? r = none → ∃ start goal, standing = .steady c start goal goal) := by
  obtain ⟨answer, reading, following, hsends, rfl, hend⟩ := Migrator.does_batch u hs h hdoes
  cases hsends with
  | unsent hn =>
    obtain ⟨e, -, rfl, rfl, -⟩ | ⟨plan, hplan, -⟩ := hend
    · exact ⟨_, .nil _, .having _, nofun⟩
    · cases hplan
  | sent hn a =>
    have hq := reg.read hn
    obtain ⟨e, hplan, rfl, rfl, -⟩ | ⟨plan, hplan, hfollow⟩ := hend
    · exact ⟨_, .single (.unread hq hplan), .having _, nofun⟩
    · obtain ⟨done, goal, hdone, hbegins, hle, hgoal, hgoal', hleads⟩ := exists_of_planned hplan
      obtain ⟨standing, hruns, hrests, hok⟩ :=
        runs_follow hkeeps hs hleads hle hgoal' h hfollow
      exact ⟨standing, .cons (.read hq hdone hbegins hgoal hgoal') hruns, hrests,
        fun hfault => ⟨_, goal, hok hfault⟩⟩

omit hkeeps hs

theorem runs_opens {initialized : Bool} {calls : List Call} {a : Except Error Connection}
    (h : Opens initialized calls a) :
    Runs (Open u reg names target) .away (calls.map .call) (opened a) := by
  cases h with
  | ready => exact .single (.acquires a)
  | fresh => exact .cons (.init _) (.single (.acquires a))
  | uninitialized e => exact .single (.init _)

/-- A statement about the tables leaves a run away. -/
theorem runs_perform {n : Except Error Node} {r : Except Error QueryResult}
    (hn : n ∈ [createTable, createLockTable, selectLockRow, insertLockRow])
    (hdoes : (Migrator.perform (u.handle .pool) n).Does s acts r t) :
    Runs (Open u reg names target) .away acts .away := by
  rw [Migrator.perform, Action.does_bind_ofExcept] at hdoes
  cases n with
  | error e =>
    obtain ⟨rfl, -, -⟩ := hdoes
    exact .nil _
  | ok n =>
    obtain ⟨e, -, rfl, -⟩ | ⟨q, calls, opened, hq, hopens, ⟨e, rfl, rfl, -⟩ |
      ⟨c, a, rfl, -, rfl⟩⟩ := Database.does_run_pool u hdoes
    · exact .nil _
    · exact runs_opens hopens
    · have hentry := reg.tables hn (show (Except.ok n).bind u.compile = .ok q from hq)
      exact (runs_opens hopens).append (.cons (.tables a hentry) (.single (.released c)))

theorem runs_ensureTables {r : Except Error Unit}
    (hdoes : ((u.migrator registered).ensureTables).Does s acts r t) :
    Runs (Open u reg names target) .away acts .away := by
  let P (acts : List Act) : Prop := Runs (Open u reg names target) .away acts .away
  have happend : ∀ {xs ys}, P xs → P ys → P (xs ++ ys) := fun hxs hys => hxs.append hys
  exact Migrator.ensureTables_induction (P := P) u (.nil _) happend runs_perform hdoes

theorem runs_asks (reg : Register u) (names : List String) (target : Target)
    {granted : Except Error Unit} (h : u.dialect.Asks c acts granted) :
    Runs (Open u reg names target) (.having c u.dialect.undoesDefinitions false) acts
      (answered u c granted) := by
  cases h with
  | unlocked hlock =>
    rw [answered, ready, hlock]
    exact .nil _
  | asked hlock a =>
    have hq := reg.lock hlock
    cases ha : u.dialect.verdict a with
    | error e => exact .single (.denied hq ha)
    | ok b =>
      rw [answered, ready, hlock]
      exact .single (.granted hq ha)

/-- Behind its tables, a run goes from standing to standing. -/
theorem comes_locked (hkeeps : ∀ x ∈ registered, x.2.Keeps reg) {initialized : Bool} {b : Batch}
    (h : Migrator.Locked u (watched registered) target initialized acts b) :
    Comes u reg (u.migrator (watched registered)).names target acts b.error := by
  generalize hnames : (u.migrator (watched registered)).names = names
  have hreleased : ∀ c, Runs (Open u reg names target) (.having c false false)
      [.call (.release c)] .away := fun c => .single (.released c)
  have hbatched : ∀ {scope i c s acts r t}, (u.handle scope).binding? = some i →
      s.holds? i = some c → ((u.migrator (watched registered)).batch (u.handle scope) target).Does
        s acts r t → _ := fun hs h hdoes => hnames ▸ runs_batch hkeeps hs h hdoes
  cases h with
  | unconnected hopens => exact .nothing (runs_opens hopens)
  | unbegun hd hopens =>
    exact .nothing ((runs_opens hopens).append (.cons (.unbegun hd _ _ _) (hreleased _)))
  | refused hd back hopens hasks =>
    have hasking := runs_asks reg names target hasks
    rw [hd] at hasking
    refine .nothing ((runs_opens hopens).append (.cons (.begun hd _ _) ?_))
    exact hasking.append (.cons (.undone hd (.having false) _) (hreleased _))
  | denied hd hopens hasks =>
    have hasking := runs_asks reg names target hasks
    rw [hd] at hasking
    refine .nothing ((runs_opens hopens).append (hasking.append ?_))
    rw [answered, hd]
    exact hreleased _
  | @settled hd calls c asking i v w batch outcome ending ended hopens hasks hholds hbatch
      hsettles =>
    have hasking := runs_asks reg names target hasks
    rw [hd] at hasking
    obtain ⟨standing, hruns, hrests, hok⟩ := hbatched rfl hholds hbatch
    have hbefore : Runs (Open u reg names target) .away
        (calls.map .call ++ .call (.begin c {} (.ok ())) :: (asking ++ batch)) standing :=
      (runs_opens hopens).append (.cons (.begun hd _ _) (hasking.append (hruns.mono .inside)))
    have hundone : ∀ back, Runs (Open u reg names target) standing
        [.call (.rollback c back), .call (.release c)] .away :=
      fun back => .cons (.undone hd hrests back) (hreleased c)
    generalize hunsettled : unsettled outcome = r at hsettles
    cases hsettles with
    | committed =>
      obtain ⟨start, goal, rfl⟩ := hok (fault?_of_unsettled hunsettled)
      simpa [error?] using Comes.final hbefore (.committed hd c start goal) (hreleased c)
        (fun _ => ⟨c, start, goal, rfl⟩) (fun _ => rfl)
    | uncommitted _ e back =>
      obtain ⟨start, goal, rfl⟩ := hok (fault?_of_unsettled hunsettled)
      refine .nothing ?_
      simpa using hbefore.append (.cons (.uncommitted hd c start goal e) (hundone back))
    | undone e back =>
      refine .nothing ?_
      simpa using hbefore.append (hundone back)
  | @unlocked hd calls c asking i v w batch outcome giving given hopens hasks hholds hbatch
      hgives =>
    have hasking := runs_asks reg names target hasks
    rw [hd] at hasking
    obtain ⟨standing, hruns, hrests, hok⟩ := hbatched rfl hholds hbatch
    have hbefore : Runs (Open u reg names target) .away
        (calls.map .call ++ (asking ++ batch)) standing :=
      (runs_opens hopens).append (hasking.append (hruns.mono .inside))
    have hgoal : (fault? outcome).or (error? given) = none →
        ∃ c start goal, standing = .steady c start goal goal :=
      fun h => ⟨c, hok (Option.or_eq_none_iff.mp h).1⟩
    have hcounts : u.dialect.undoesDefinitions = true →
        (fault? outcome).or (error? given) = none :=
      fun h => absurd (hd.symm.trans h) Bool.false_ne_true
    cases hgives with
    | unlocked hunlock =>
      simpa using Comes.final hbefore (.left hd hunlock hrests) (.nil .away) hgoal hcounts
    | @given sql hunlock a =>
      have hq : reg.kind? (Compiled.raw sql).sql (Compiled.raw sql).parameters = some .unlock :=
        reg.unlock hunlock
      simpa using Comes.final hbefore (.given hd hrests hq a) (hreleased c) hgoal hcounts

/-- A run that executes the only migration, by what the database takes its statements for. -/
theorem exists_path_mysql (reg : Register { dialect := .mysql }) (name : String) {n : Node}
    {q : Compiled} (hn : n.compile .mysql = .ok q) (c : Connection) :
    ∃ q₁ q₂ q₃ lock q₄ q₅ unlock acts t, reg.kind? q₁.sql q₁.parameters = none ∧
      reg.kind? q₂.sql q₂.parameters = none ∧ reg.kind? q₃.sql q₃.parameters = none ∧
      reg.kind? (Compiled.raw lock).sql (Compiled.raw lock).parameters = some .lock ∧
      reg.kind? q₄.sql q₄.parameters = some .read ∧
      reg.kind? q₅.sql q₅.parameters = some (.booked .up name) ∧
      reg.kind? (Compiled.raw unlock).sql (Compiled.raw unlock).parameters = some .unlock ∧
      acts = [.call (.acquire (.ok c)), .call (.execute c q₁ (.ok {})), .call (.release c),
        .call (.acquire (.ok c)), .call (.execute c q₂ (.ok {})), .call (.release c),
        .call (.acquire (.ok c)), .call (.execute c q₃ (.ok { rows := [[]] })), .call (.release c),
        .call (.acquire (.ok c)),
        .call (.execute c (.raw lock) (.ok { rows := [[("acquired", .int 1)]] })),
        .call (.execute c q₄ (.ok {})), .starts .up name, .call (.execute c q (.ok {})),
        .stops .up name, .call (.execute c q₅ (.ok {})),
        .call (.execute c (.raw unlock) (.ok {})), .call (.release c)] ∧
      ((({ dialect := .mysql } : Party).migrator
          (watched [(name, .statements [n] [])])).run .latest).Does { initialized := true }
        acts (.ok ⟨[⟨name, .up, .success⟩], none⟩) t := by
  have hbound : (Shared.bind { initialized := true } ⟨some c, false⟩).holds? 0 = some c := rfl
  have hran := Migration.does_watched_single { dialect := .mysql } (.connection 0) name rfl hbound
    hn (a := .ok {}) rfl
  obtain ⟨q₁, q₂, q₃, q₄, q₅, h₁, h₂, h₃, h₄, h₅, hdoes⟩ :=
    Migrator.exists_does_run_mysql name "" (Migration.watched name (.statements [n] []))
      (s := { initialized := true }) (c := c) rfl rfl hran hbound
  rw [← Party.compile_plain] at h₁ h₂ h₃ h₄ h₅
  exact ⟨q₁, q₂, q₃, _, q₄, q₅, _, _, _, reg.tables (by simp) h₁, reg.tables (by simp) h₂,
    reg.tables (by simp) h₃, reg.lock rfl, reg.read h₄, reg.books (.record "") h₅,
    reg.unlock rfl, rfl, hdoes⟩

/-- A run always comes to an answer, and on its way goes from standing to standing. -/
theorem comes_run (hkeeps : ∀ x ∈ registered, x.2.Keeps reg) {r : Except Error Batch}
    (hdoes : ((u.migrator (watched registered)).run target).Does s acts r t) :
    ∃ b, r = .ok b ∧
      Comes u reg (u.migrator (watched registered)).names target acts b.error := by
  have hstays := stays_of_mem_watched fun x hx => (hkeeps x hx).stays
  obtain ⟨making, made, v, rest, rfl, hmaking, ⟨e, -, rfl, rfl⟩ | ⟨-, outcome, rfl, hbatch⟩⟩ :=
    Migrator.does_run_cases u hdoes
  · rw [List.append_nil]
    exact ⟨_, rfl, .nothing (runs_ensureTables hmaking)⟩
  · have hlocked := Migrator.does_lockedBatch u hstays hbatch
    exact ⟨_, rfl, (comes_locked hkeeps hlocked).behind (runs_ensureTables hmaking)⟩

end Standing

end SqlTree
