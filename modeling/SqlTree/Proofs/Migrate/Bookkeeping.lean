import SqlTree.Proofs.Migrate.Standings

/-!
# Bookkeeping along runs

In every standing of a run the archive holds what the standing tells (`Standing.Fits`): the books
are those from before the batch with the migrations it went through, in its transaction or for good.
-/

namespace SqlTree

open Migrate

namespace Migrate

/-- A position on the way from `start` to `goal`. -/
def Between (start goal k : Nat) : Prop := start ≤ k ∧ k ≤ goal ∨ goal ≤ k ∧ k ≤ start

variable {names : List String} {start goal k : Nat} {direction : Direction} {name : String}

theorem next?_eq_some (h : next? names k goal = some (direction, name)) :
    direction = .up ∧ k < goal ∧ moved k goal = k + 1 ∧ names[k]? = some name ∨
      direction = .down ∧ ∃ j, k = j + 1 ∧ goal ≤ j ∧ moved k goal = j ∧ names[j]? = some name := by
  rw [next?] at h
  split at h
  · next hlt =>
    obtain ⟨n, hn, heq⟩ := Option.map_eq_some_iff.mp h
    obtain ⟨rfl, rfl⟩ := Prod.mk.inj heq
    exact .inl ⟨rfl, hlt, by rw [moved, if_pos hlt], hn⟩
  · next hle =>
    split at h
    · next hlt =>
      obtain ⟨n, hn, heq⟩ := Option.map_eq_some_iff.mp h
      obtain ⟨rfl, rfl⟩ := Prod.mk.inj heq
      exact .inr ⟨rfl, k - 1, by omega, by omega, by rw [moved, if_neg hle], hn⟩
    · cases h

theorem Between.moved (h : Between start goal k)
    (hnext : next? names k goal = some (direction, name)) :
    Between start goal (moved k goal) := by
  obtain ⟨-, hlt, hmoved, -⟩ | ⟨-, j, rfl, hle, hmoved, -⟩ := next?_eq_some hnext
  · rw [hmoved]
    unfold Between at h ⊢
    omega
  · rw [hmoved]
    unfold Between at h ⊢
    omega

/-- The books behind the next migration. -/
theorem book_first (hnames : names.Pairwise (· < ·))
    (hnext : next? names k goal = some (direction, name)) :
    book (first names k) (direction, name) = first names (moved k goal) := by
  obtain ⟨rfl, -, hmoved, hname⟩ | ⟨rfl, j, rfl, -, hmoved, hname⟩ := next?_eq_some hnext
  · rw [hmoved, book, insert_first hname]
  · rw [hmoved, book, erase_first hnames hname]

/-- What is to be executed is not booked, and what is to be reverted is. -/
theorem mem_first_of_next? (hnames : names.Pairwise (· < ·)) (hbetween : Between start goal k)
    (hnext : next? names k goal = some (direction, name)) {j : Nat} (hj : j = start ∨ j = k) :
    name ∈ first names j ↔ direction = .down := by
  unfold Between at hbetween
  obtain ⟨rfl, hlt, -, hname⟩ | ⟨rfl, i, rfl, hle, -, hname⟩ := next?_eq_some hnext
  · rw [mem_first_iff hnames hname]
    simp only [reduceCtorEq, iff_false]
    omega
  · rw [mem_first_iff hnames hname]
    simp only [iff_true]
    omega

end Migrate

namespace Archive

variable {σ : Type} [DecidableEq σ] {a : Archive σ} {x y : σ}
  {writes : Option (List (Direction × String))}

@[simp] theorem committed_set : (a.set x writes).committed = a.committed := rfl

@[simp] theorem pending_set_self : (a.set x writes).pending x = writes := Function.update_self ..

@[simp] theorem pending_set_of_ne (h : y ≠ x) : (a.set x writes).pending y = a.pending y :=
  Function.update_of_ne h ..

@[simp] theorem written_set_self : (a.set x writes).written x = writes.getD [] := by simp [written]

@[simp] theorem written_set_of_ne (h : y ≠ x) : (a.set x writes).written y = a.written y := by
  simp [written, h]

omit [DecidableEq σ] in
theorem written_of_pending (h : a.pending x = none) : a.written x = [] := by
  rw [written, h]
  rfl

omit [DecidableEq σ] in
theorem view_congr {b : Archive σ} (hcommitted : b.committed = a.committed)
    (hpending : b.pending x = a.pending x) : b.view x = a.view x := by
  rw [view, view, hcommitted, written, written, hpending]

theorem pending_write_of_ne (h : y ≠ x) (w : Direction × String) :
    (a.write x w).pending y = a.pending y := by
  rw [write]
  split
  · exact pending_set_of_ne h
  · rfl

/-- What an open transaction writes stays in it. -/
theorem committed_write_of_isSome (h : (a.pending x).isSome = true) (w : Direction × String) :
    (a.write x w).committed = a.committed ∧ ((a.write x w).pending x).isSome = true := by
  obtain ⟨ws, hws⟩ := Option.isSome_iff_exists.mp h
  simp [write, hws]

end Archive

namespace Standing

def connection? : Standing → Option Connection
  | .away => none
  | .having c _ _ => some c
  | .steady c _ _ _ => some c
  | .running c _ _ _ _ => some c
  | .booking c _ _ _ => some c

variable {σ : Type} (u : Party) (names : List String) (target : Target) (session : Connection → σ)
  (base : Finset String) (a : Archive σ)

/-- What the archive holds when a batch has gone from `start` to `k` executed migrations, with what
became of the transaction of the migration that runs. -/
structure Batching (x : σ) (start goal k : Nat) (phase : Phase) : Prop where
  base_eq : base = first names start
  start_le : start ≤ names.length
  goal_eq : target.goal? names start = some goal
  goal_le : goal ≤ names.length
  between : Between start goal k
  view_eq : a.view x = first names k
  undoes : u.dialect.undoesDefinitions = true → a.committed = base ∧ (a.pending x).isSome = true
  counts : u.dialect.undoesDefinitions = false →
    a.written x = [] ∧ (phase = .idle → a.pending x = none)

/-- What the archive holds in a standing, when `base` was booked before the batch. -/
def Holds : Standing → Prop
  | .away => a.committed = base
  | .having c begun _ =>
    a.committed = base ∧ a.pending (session c) = if begun then some [] else none
  | .steady c start goal k => Batching u names target base a (session c) start goal k .idle
  | .running c start goal k phase =>
    Batching u names target base a (session c) start goal k phase ∧
      (next? names k goal).isSome = true
  | .booking c start goal k => Batching u names target base a (session c) start goal k .idle

/-- The archive holds what it should, and the transactions on other connections wrote nothing. -/
structure Fits (standing : Standing) : Prop where
  holds : standing.Holds u names target session base a
  quiet : ∀ c, standing.connection? ≠ some c → a.written (session c) = []

/-- What was booked, as a session that goes away from a standing leaves it. -/
def closing : Standing → Finset String
  | .steady _ _ _ k => first names k
  | .booking _ _ _ k => first names k
  | _ => base

end Standing

namespace Archive

variable {σ : Type} [DecidableEq σ] {a : Archive σ} {u : Party} {reg : Register u}
  {session : Connection → σ} {c : Connection} {q : Compiled} {r : Except Error QueryResult}

/-- A statement that is no booking leaves the archive as it is. -/
theorem after_execute (h : ∀ w : Direction × String,
    reg.kind? q.sql q.parameters ≠ some (.booked w.1 w.2)) :
    a.after reg session (.call (.execute c q r)) = a := by
  cases r with
  | error e => rfl
  | ok r =>
    rw [after]
    split
    · next direction name heq => exact absurd heq (h (direction, name))
    · rfl

theorem after_execute_of_kind? {e : Entry} (hq : reg.kind? q.sql q.parameters = some e)
    (he : ∀ w : Direction × String, e ≠ .booked w.1 w.2) :
    a.after reg session (.call (.execute c q r)) = a :=
  after_execute fun w h => he w (Option.some.inj (hq.symm.trans h))

/-- An act leaves the transactions of other sessions alone. -/
theorem pending_after {y : σ} {x : Act} (hy : ∀ c, y ≠ session c) :
    (a.after reg session x).pending y = a.pending y := by
  have hset : ∀ c writes, (a.set (session c) writes).pending y = a.pending y := fun c writes =>
    pending_set_of_ne (hy c)
  cases x with
  | starts direction name => rfl
  | stops direction name => rfl
  | call x =>
    cases x with
    | acquire r =>
      cases r with
      | ok c => exact hset c none
      | error e => rfl
    | begin c s r =>
      cases r with
      | ok _ => exact hset c (some [])
      | error e => rfl
    | commit c r =>
      cases r with
      | ok _ => exact hset c none
      | error e => rfl
    | rollback c r => exact hset c none
    | execute c q r =>
      cases r with
      | error e => rfl
      | ok r =>
        rw [after]
        split
        · exact pending_write_of_ne (hy c) _
        · rfl
    | _ => rfl

/-- Only bookings write in the transaction of a session. -/
theorem written_after {y : σ} {x : Act} (h : a.written y = [])
    (hx : ∀ c q r direction name, x = .call (.execute c q r) →
      reg.kind? q.sql q.parameters = some (.booked direction name) → y ≠ session c) :
    (a.after reg session x).written y = [] := by
  have hset : ∀ c writes, writes.getD [] = [] → (a.set (session c) writes).written y = [] := by
    intro c writes hwrites
    by_cases hy : y = session c
    · subst hy
      rw [written_set_self, hwrites]
    · rw [written_set_of_ne hy, h]
  cases x with
  | starts direction name => exact h
  | stops direction name => exact h
  | call x =>
    cases x with
    | acquire r =>
      cases r with
      | ok c => exact hset c none rfl
      | error e => exact h
    | begin c s r =>
      cases r with
      | ok _ => exact hset c (some []) rfl
      | error e => exact h
    | commit c r =>
      cases r with
      | ok _ => exact hset c none rfl
      | error e => exact h
    | rollback c r => exact hset c none rfl
    | execute c q r =>
      cases r with
      | error e => exact h
      | ok r =>
        rw [after]
        split
        · next direction name hq =>
          have hy := hx c q _ direction name rfl hq
          rw [written, pending_write_of_ne hy]
          exact h
        · exact h
    | _ => exact h

end Archive

namespace Standing

variable {σ : Type} [DecidableEq σ] {u : Party} {names : List String} {target : Target}
  {session : Connection → σ} {base : Finset String} {a : Archive σ} {reg : Register u}
  {start goal k : Nat} {phase : Phase} {c : Connection} {standing standing' : Standing} {x : Act}

namespace Batching

/-- The next migration is booked, in the transaction or for good. -/
theorem book (hnames : names.Pairwise (· < ·)) {s : σ}
    (h : Batching u names target base a s start goal k .idle) {direction : Direction}
    {name : String} (hnext : next? names k goal = some (direction, name)) :
    Batching u names target base (a.write s (direction, name)) s start goal (moved k goal)
      .idle where
  base_eq := h.base_eq
  start_le := h.start_le
  goal_eq := h.goal_eq
  goal_le := h.goal_le
  between := h.between.moved hnext
  view_eq := by
    rw [← book_first hnames hnext, ← h.view_eq]
    cases hd : u.dialect.undoesDefinitions with
    | true =>
      obtain ⟨ws, hws⟩ := Option.isSome_iff_exists.mp (h.undoes hd).2
      exact Archive.view_write_some hws _
    | false =>
      obtain ⟨hwritten, hpending⟩ := h.counts hd
      rw [Archive.written_write_none (hpending rfl), Archive.view_of_written hwritten]
      exact Archive.view_of_written hwritten
  undoes := fun hd => by
    obtain ⟨hcommitted, hpending⟩ := h.undoes hd
    obtain ⟨hkept, hpending'⟩ := Archive.committed_write_of_isSome hpending (direction, name)
    exact ⟨hkept.trans hcommitted, hpending'⟩
  counts := fun hd => by
    obtain ⟨hwritten, hpending⟩ := h.counts hd
    rw [Archive.written_write_none (hpending rfl)]
    exact ⟨hwritten, hpending⟩

omit [DecidableEq σ] in
theorem exists_start {s : σ} (h : Batching u names target base a s start goal k phase) :
    ∃ start ≤ names.length, base = first names start ∧
      (target.goal? names start).isSome = true :=
  ⟨start, h.start_le, h.base_eq, by rw [h.goal_eq]; rfl⟩

omit [DecidableEq σ] in
/-- Without a transaction of the batch, its migrations count at once. -/
theorem committed_eq {s : σ} (h : Batching u names target base a s start goal k phase)
    (hd : u.dialect.undoesDefinitions = false) : a.committed = first names k := by
  rw [← h.view_eq, Archive.view_of_written (h.counts hd).1]

omit [DecidableEq σ] in
/-- What keeps the books and the transaction of a batch keeps what it holds; a migration may have a
transaction of its own if the batch has none. -/
theorem kept {s : σ} (h : Batching u names target base a s start goal k phase) {b : Archive σ}
    {phase' : Phase} (hcommitted : b.committed = a.committed)
    (hundoes : u.dialect.undoesDefinitions = true → b.pending s = a.pending s)
    (hcounts : u.dialect.undoesDefinitions = false →
      b.written s = [] ∧ (phase' = .idle → b.pending s = none)) :
    Batching u names target base b s start goal k phase' :=
  { h with
    view_eq := by
      cases hd : u.dialect.undoesDefinitions with
      | true => rw [Archive.view_congr hcommitted (hundoes hd), h.view_eq]
      | false =>
        rw [Archive.view_of_written (hcounts hd).1, hcommitted, h.committed_eq hd]
    undoes := fun hd => by
      rw [hcommitted, hundoes hd]
      exact h.undoes hd
    counts := hcounts }

omit [DecidableEq σ] in
/-- What others do in their transactions is none of a batch. -/
theorem frame {s : σ} (h : Batching u names target base a s start goal k phase) {b : Archive σ}
    (hcommitted : b.committed = a.committed) (hpending : b.pending s = a.pending s) :
    Batching u names target base b s start goal k phase := by
  refine h.kept hcommitted (fun _ => hpending) fun hd => ?_
  rw [Archive.written, hpending]
  exact h.counts hd

/-- A call that stays aloof of a batch. -/
theorem aloof (hsession : Function.Injective session) {y : Call} (hy : reg.Aloof c y)
    (h : Batching u names target base a (session c) start goal k phase)
    (hquiet : ∀ c' ≠ c, a.written (session c') = []) :
    Batching u names target base (a.after reg session (.call y)) (session c) start goal k
      (Call.nextPhase c phase y) := by
  have hne : ∀ {c'}, c' ≠ c → session c ≠ session c' := fun hc heq => hc (hsession heq).symm
  have helse : ∀ {c'} b, c' ≠ c → b.committed = a.committed →
      (∀ s ≠ session c', b.pending s = a.pending s) →
      Batching u names target base b (session c) start goal k phase :=
    fun b hc hcommitted hpending => h.frame hcommitted (hpending _ (hne hc))
  have hset : ∀ {c'} writes, ∀ s ≠ session c',
      (a.set (session c') writes).pending s = a.pending s :=
    fun _ _ hs => Archive.pending_set_of_ne hs
  cases y with
  | execute c' q r =>
    rw [Archive.after_execute fun w hq => by cases hq.symm.trans hy]
    exact h
  | acquire r =>
    cases r with
    | error e => exact h
    | ok c' => exact helse _ hy rfl (hset none)
  | begin c' settings r =>
    cases r with
    | error e => exact h
    | ok _ =>
      rw [Call.nextPhase]
      split
      · next heq =>
        subst heq
        exact h.kept rfl (fun hd => absurd rfl (hy hd)) fun _ =>
          ⟨Archive.written_set_self, fun hidle => by cases hidle⟩
      · next hc => exact helse _ hc rfl (hset _)
  | commit c' r =>
    cases r with
    | error e =>
      rw [Call.nextPhase]
      split
      · next hc =>
        exact h.kept rfl (fun _ => rfl) fun hd => ⟨(h.counts hd).1, fun hidle => by cases hidle⟩
      · exact h
    | ok _ =>
      rw [Call.nextPhase]
      split
      · next heq =>
        subst heq
        have hd := Bool.eq_false_iff.mpr fun hd => hy hd rfl
        have hcommitted : a.view (session c') = a.committed :=
          Archive.view_of_written (h.counts hd).1
        exact h.kept hcommitted (fun hd => absurd rfl (hy hd)) fun _ =>
          ⟨Archive.written_set_self (a := a), fun _ => Archive.pending_set_self (a := a)⟩
      · next hc =>
        exact helse _ hc (Archive.view_of_written (hquiet _ hc)) (hset none)
  | rollback c' r =>
    rw [Call.nextPhase]
    split
    · next heq =>
      subst heq
      exact h.kept rfl (fun hd => absurd rfl (hy hd)) fun _ =>
        ⟨Archive.written_set_self, fun _ => Archive.pending_set_self⟩
    · next hc => exact helse _ hc rfl (hset none)
  | _ => exact h

end Batching

omit [DecidableEq σ] in
theorem connection?_of_rests (h : standing.Rests u c) : standing.connection? = some c := by
  cases h <;> rfl

omit [DecidableEq σ] in
/-- In a transaction nothing is final before its end. -/
theorem Fits.committed_eq (hd : u.dialect.undoesDefinitions = true) (hrests : standing.Rests u c)
    (h : standing.Fits u names target session base a) : a.committed = base := by
  have hholds := h.holds
  cases hrests with
  | having granted => exact hholds.1
  | steady start goal k => exact (hholds.undoes hd).1
  | booking start goal k => exact (hholds.undoes hd).1

theorem Fits.inside (hnames : names.Pairwise (· < ·)) (hsession : Function.Injective session)
    (hnext : Inside u reg names target standing x standing')
    (h : standing.Fits u names target session base a) (hhonest : a.Honest reg session x) :
    standing'.Fits u names target session base (a.after reg session x) := by
  obtain ⟨hholds, hquiet⟩ := h
  cases hnext with
  | unread hq hplan =>
    rw [Archive.after_execute_of_kind? hq nofun]
    exact ⟨hholds, hquiet⟩
  | @read c q r done goal hq hdone hbegins hgoal hle =>
    rw [Archive.after_execute_of_kind? hq nofun]
    refine ⟨?_, hquiet⟩
    obtain ⟨hcommitted, hpending⟩ := hholds
    have hwritten : a.written (session c) = [] := by
      rw [Archive.written, hpending]
      split <;> rfl
    have hbase : base = first names done.length := by
      have hread := hhonest hq done hdone
      rw [Archive.view_of_written hwritten, hcommitted] at hread
      rw [← hread, List.prefix_iff_eq_take.mp hbegins, List.length_map, first]
    have hlength : done.length ≤ names.length := by simpa using hbegins.length_le
    exact
      { base_eq := hbase
        start_le := hlength
        goal_eq := hgoal
        goal_le := hle
        between := (le_total done.length goal).imp (fun h => ⟨le_rfl, h⟩) fun h => ⟨h, le_rfl⟩
        view_eq := by rw [Archive.view_of_written hwritten, hcommitted, hbase]
        undoes := fun hd => ⟨hcommitted, by rw [hpending, if_pos hd]; rfl⟩
        counts := fun hd => ⟨hwritten, fun _ => by rw [hpending, hd]; rfl⟩ }
  | starts hnext => exact ⟨⟨hholds, by rw [hnext]; rfl⟩, hquiet⟩
  | @runs c start goal k phase y hy =>
    have hquiet' : ∀ c' ≠ c, a.written (session c') = [] :=
      fun c' hc => hquiet c' fun heq => hc (Option.some.inj heq).symm
    refine ⟨⟨hholds.1.aloof hsession hy hquiet', hholds.2⟩, fun c' hc => ?_⟩
    refine Archive.written_after (hquiet c' hc) fun c q r direction name heq hq => ?_
    cases heq
    cases hq.symm.trans hy
  | stops hnext => exact ⟨hholds.1, hquiet⟩
  | unbooked hnext hq => exact ⟨hholds, hquiet⟩
  | @booked c start goal k direction name q r hnext hq =>
    have hafter : a.after reg session (.call (.execute c q (.ok r))) =
        a.write (session c) (direction, name) := by rw [Archive.after, hq]
    rw [hafter]
    refine ⟨hholds.book hnames hnext, fun c' hc => ?_⟩
    have hne : session c' ≠ session c := fun heq => hc (congrArg some (hsession heq).symm)
    rw [Archive.written, Archive.pending_write_of_ne hne]
    exact hquiet c' hc

omit [DecidableEq σ] in
/-- Where a run has a connection, and no other transaction has written. -/
theorem fits_having {begun granted : Bool} (hcommitted : a.committed = base)
    (hpending : a.pending (session c) = if begun then some [] else none)
    (hquiet : ∀ c', c' ≠ c → a.written (session c') = []) :
    (having c begun granted).Fits u names target session base a :=
  ⟨⟨hcommitted, hpending⟩, fun c' hc => hquiet c' fun heq => hc (congrArg some heq.symm)⟩

omit [DecidableEq σ] in
/-- Nothing was written outside of the connection of a run. -/
theorem Fits.quiet_of_eq (h : standing.Fits u names target session base a)
    (hc : standing.connection? = some c) {c' : Connection} (hne : c' ≠ c) :
    a.written (session c') = [] :=
  h.quiet c' fun heq => hne (Option.some.inj (heq.symm.trans hc))

theorem Fits.open (hnames : names.Pairwise (· < ·)) (hsession : Function.Injective session)
    (hnext : Open u reg names target standing x standing')
    (h : standing.Fits u names target session base a) (hhonest : a.Honest reg session x) :
    standing'.Fits u names target session base (a.after reg session x) := by
  -- beginning or ending a transaction on the connection of the run
  have hset : ∀ {c writes granted begun}, a.committed = base →
      writes = (if begun then some [] else none) →
      (∀ c', c' ≠ c → a.written (session c') = []) →
      (having c begun granted).Fits u names target session base (a.set (session c) writes) := by
    intro c writes granted begun hcommitted hwrites hquiet
    refine fits_having hcommitted (by rw [Archive.pending_set_self, hwrites]) fun c' hc => ?_
    rw [Archive.written_set_of_ne fun heq => hc (hsession heq)]
    exact hquiet c' hc
  cases hnext with
  | inside hnext => exact h.inside hnames hsession hnext hhonest
  | init a => exact h
  | acquires r =>
    cases r with
    | error e => exact h
    | ok c => exact hset h.holds rfl fun c' _ => h.quiet c' nofun
  | released c =>
    refine ⟨h.holds.1, fun c' _ => ?_⟩
    by_cases hc : c' = c
    · subst hc
      exact Archive.written_of_pending (a := a) h.holds.2
    · exact h.quiet_of_eq rfl hc
  | tables r hq =>
    rw [Archive.after_execute fun w hw => by cases hw.symm.trans hq]
    exact h
  | unbegun hd c settings e => exact h
  | begun hd c settings => exact hset h.holds.1 rfl fun c' => h.quiet_of_eq rfl
  | denied hq hverdict =>
    rw [Archive.after_execute_of_kind? hq nofun]
    exact h
  | granted hq hverdict =>
    rw [Archive.after_execute_of_kind? hq nofun]
    exact ⟨h.holds, h.quiet⟩
  | uncommitted hd c start goal e => exact h
  | undone hd hrests r =>
    exact hset (h.committed_eq hd hrests) rfl fun c' => h.quiet_of_eq (connection?_of_rests hrests)

omit [DecidableEq σ] in
/-- Without a transaction, what counts is where the batch stands. -/
theorem Fits.closing_eq (hd : u.dialect.undoesDefinitions = false) (hrests : standing.Rests u c)
    (h : standing.Fits u names target session base a) :
    a.committed = closing names base standing ∧ a.pending (session c) = none := by
  have hholds := h.holds
  cases hrests with
  | having granted =>
    refine ⟨hholds.1, hholds.2.trans ?_⟩
    rw [hd]
    rfl
  | steady start goal k => exact ⟨Batching.committed_eq hholds hd, (hholds.counts hd).2 rfl⟩
  | booking start goal k => exact ⟨Batching.committed_eq hholds hd, (hholds.counts hd).2 rfl⟩

/-- What a batch did is final. -/
theorem Fits.closes (hsession : Function.Injective session)
    (hnext : Closes u reg standing x standing')
    (h : standing.Fits u names target session base a) :
    standing'.Fits u names target session (closing names base standing)
      (a.after reg session x) := by
  cases hnext with
  | committed hd c start goal =>
    refine fits_having h.holds.view_eq Archive.pending_set_self fun c' hc => ?_
    have hne : session c' ≠ session c := fun heq => hc (hsession heq)
    exact (Archive.written_set_of_ne (a := a) hne).trans (h.quiet_of_eq rfl hc)
  | given hd hrests hq r =>
    obtain ⟨hcommitted, hpending⟩ := h.closing_eq hd hrests
    rw [Archive.after_execute_of_kind? hq nofun]
    exact fits_having hcommitted hpending fun c' => h.quiet_of_eq (connection?_of_rests hrests)
  | @left hd hunlock standing c hrests =>
    obtain ⟨hcommitted, hpending⟩ := h.closing_eq hd hrests
    refine ⟨hcommitted, fun c' _ => ?_⟩
    by_cases hc : c' = c
    · subst hc
      exact Archive.written_of_pending (a := a) hpending
    · exact h.quiet_of_eq (connection?_of_rests hrests) hc

section Listed

omit [DecidableEq σ]

variable (hnames : names.Pairwise (· < ·))
include hnames

omit hnames in
theorem Batching.le {s : σ} (h : Batching u names target base a s start goal k phase) :
    k ≤ names.length := by
  have hbetween := h.between
  have hstart := h.start_le
  have hgoal := h.goal_le
  unfold Between at hbetween
  omega

theorem Batching.isPrefix {s : σ} (h : Batching u names target base a s start goal k phase) :
    listed base <+: names ∧ listed a.committed <+: names := by
  have hbase : listed base <+: names :=
    (listed_isPrefix_iff hnames).mpr ⟨start, h.start_le, h.base_eq⟩
  refine ⟨hbase, ?_⟩
  cases hd : u.dialect.undoesDefinitions with
  | true => rwa [(h.undoes hd).1]
  | false => exact (listed_isPrefix_iff hnames).mpr ⟨k, h.le, h.committed_eq hd⟩

/-- The books are a prefix of the names as long as those from before the batch are. -/
theorem Fits.listed_iff (h : standing.Fits u names target session base a) :
    listed a.committed <+: names ↔ listed base <+: names := by
  have hholds := h.holds
  cases standing with
  | away => rw [show a.committed = base from hholds]
  | having c begun granted => rw [hholds.1]
  | steady c start goal k => exact iff_of_true (hholds.isPrefix hnames).2 (hholds.isPrefix hnames).1
  | running c start goal k phase =>
    exact iff_of_true (hholds.1.isPrefix hnames).2 (hholds.1.isPrefix hnames).1
  | booking c start goal k =>
    exact iff_of_true (hholds.isPrefix hnames).2 (hholds.isPrefix hnames).1

theorem Fits.listed_closing (h : standing.Fits u names target session base a)
    (hbase : listed base <+: names) : listed (closing names base standing) <+: names := by
  have hholds := h.holds
  cases standing with
  | steady c start goal k => exact (listed_isPrefix_iff hnames).mpr ⟨k, hholds.le, rfl⟩
  | booking c start goal k => exact (listed_isPrefix_iff hnames).mpr ⟨k, hholds.le, rfl⟩
  | _ => exact hbase

end Listed

theorem Fits.next (hnames : names.Pairwise (· < ·)) (hsession : Function.Injective session)
    (hnext : Next u reg names target standing x standing')
    (h : standing.Fits u names target session base a) (hhonest : a.Honest reg session x) :
    ∃ base', standing'.Fits u names target session base' (a.after reg session x) ∧
      (listed base <+: names → listed base' <+: names) := by
  obtain hnext | hnext := hnext
  · exact ⟨base, h.open hnames hsession hnext hhonest, id⟩
  · exact ⟨_, h.closes hsession hnext, h.listed_closing hnames⟩

section Runs

variable {acts : List Act} (hnames : names.Pairwise (· < ·)) (hsession : Function.Injective session)
include hnames hsession

theorem Fits.runs (hruns : Runs (Open u reg names target) standing acts standing')
    (h : standing.Fits u names target session base a) (hfaithful : a.Faithful reg session acts) :
    standing'.Fits u names target session base (a.run reg session acts) := by
  induction hruns generalizing a with
  | nil => exact h
  | cons hnext _ ih => exact ih (h.open hnames hsession hnext hfaithful.head) hfaithful.tail

/-- Only where the books are a prefix of the names, and the target is known, migrations run. -/
theorem Fits.exists_of_mem (hruns : Runs (Open u reg names target) standing acts standing')
    (h : standing.Fits u names target session base a) (hfaithful : a.Faithful reg session acts)
    (hx : x ∈ acts) : (∃ y, x = .call y) ∨
      ∃ start ≤ names.length, base = first names start ∧
        (target.goal? names start).isSome = true := by
  induction hruns generalizing a with
  | nil => cases hx
  | @cons standing _ _ y _ hnext _ ih =>
    obtain rfl | hx := List.mem_cons.mp hx
    · cases hnext with
      | inside hnext =>
        cases hnext with
        | starts => exact .inr (Batching.exists_start h.holds)
        | stops => exact .inr h.holds.1.exists_start
        | _ => exact .inl ⟨_, rfl⟩
      | _ => exact .inl ⟨_, rfl⟩
    · exact ih (h.open hnames hsession hnext hfaithful.head) hfaithful.tail hx

end Runs

end Standing

end SqlTree
