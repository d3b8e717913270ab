import SqlTree.Proofs.Migrate.Bookkeeping

/-!
# Runs with a lock

What the acts of a run show: whether it is lent a connection, which migration runs, and whether it
has the lock (`Standing.Shown`).  Without the lock it books nothing, and the history is read under
the lock (`Standing.Fits.committed_after`, `Standing.gripped?_of_read`).
-/

namespace SqlTree

open Migrate Standing

/-- Whether the lock ends with the transaction in which it was granted. -/
def Dialect.locksTransaction (d : Dialect) : Bool := d.unlockStatement?.isNone

theorem Dialect.locksTransaction_eq {d : Dialect} (h : d.lockStatement?.isSome = true) :
    d.locksTransaction = d.undoesDefinitions := by
  cases d with
  | oracle => cases h
  | _ => rfl

/-- Who has a lock, when somebody gives it up. -/
def letGo {α : Type} [DecidableEq α] (holder : Option α) (a : α) : Option α :=
  if holder = some a then none else holder

theorem letGo_of_ne {α : Type} [DecidableEq α] {a b : α} (h : a ≠ b) :
    letGo (some a) b = some a := if_neg fun heq => h (Option.some.inj heq)

theorem letGo_eq_some {α : Type} [DecidableEq α] {holder : Option α} {a b : α} :
    letGo holder a = some b ↔ holder = some b ∧ b ≠ a := by
  rw [letGo]
  split
  · next h =>
    subst h
    simp [eq_comm]
  · next h =>
    refine ⟨fun heq => ⟨heq, ?_⟩, And.left⟩
    rintro rfl
    exact h heq

theorem letGo_self {α : Type} [DecidableEq α] (a : α) : letGo (some a) a = none := if_pos rfl

/-- A run by a migrator of these names, with a lock. -/
structure Member (names : List String) where
  party : Party
  register : Register party
  registered : List (String × Migration Paths)
  target : Target
  named : (party.migrator registered).names = names
  keeps : ∀ x ∈ registered, x.2.Keeps register
  locks : party.dialect.lockStatement?.isSome = true

namespace Act

/-- The migration that runs behind an act. -/
def run (migration : Option (Direction × String)) : Act → Option (Direction × String)
  | .starts direction name => some (direction, name)
  | .stops _ _ => none
  | .call _ => migration

/-- Whether a connection is lent behind an act. -/
def lend (c : Connection) (lent : Bool) : Act → Bool
  | .call (.acquire (.ok c')) => lent || c' == c
  | .call (.release c') => lent && c' != c
  | _ => lent

end Act

namespace Member

variable {names : List String} (m : Member names)

/-- A path of the run. -/
def Path (acts : List Act) : Prop :=
  ∃ s r t, ((m.party.migrator (watched m.registered)).run m.target).Does s acts r t

def lent (c : Connection) (acts : List Act) : Bool := acts.foldl (Act.lend c) false

/-- The migration that is running. -/
def running? (acts : List Act) : Option (Direction × String) := acts.foldl Act.run none

/-- Who has the lock behind an act of the run.  A lock that ends with the transaction is of no use
where none has begun. -/
def hold {α : Type} [DecidableEq α] (session : Connection → α) (begun : Connection → Bool)
    (holder : Option α) : Act → Option α
  | .call (.execute c q a) =>
    match m.register.kind? q.sql q.parameters with
    | some .lock =>
      if (m.party.dialect.verdict a).isOk ∧ (m.party.dialect.locksTransaction → begun c)
      then some (session c) else holder
    | some .unlock => letGo holder (session c)
    | _ => holder
  | .call (.commit c (.ok _)) =>
    if m.party.dialect.locksTransaction then letGo holder (session c) else holder
  | .call (.rollback c _) =>
    if m.party.dialect.locksTransaction then letGo holder (session c) else holder
  | _ => holder

/-- The connection on which the run has the lock behind an act, as the run sees it. -/
def grip (held : Option Connection) : Act → Option Connection := m.hold id (fun _ => true) held

/-- The connection on which the lock was granted and not given up since. -/
def gripped? (acts : List Act) : Option Connection := acts.foldl m.grip none

end Member

namespace Standing

variable (names : List String)

/-- The connection on which a run in this standing has the lock. -/
def gripped? : Standing → Option Connection
  | .having c _ true => some c
  | .steady c _ _ _ => some c
  | .running c _ _ _ _ => some c
  | .booking c _ _ _ => some c
  | _ => none

/-- The migration that runs in this standing. -/
def running? : Standing → Option (Direction × String)
  | .running _ _ goal k _ => next? names k goal
  | _ => none

variable {names} {standing standing' : Standing} {x : Act}

theorem connection?_of_gripped? {c : Connection} (h : standing.gripped? = some c) :
    standing.connection? = some c := by
  cases standing with
  | away => cases h
  | having c begun granted =>
    cases granted with
    | false => cases h
    | true => exact h
  | _ => exact h

/-- What the acts of a run show of its standing. -/
structure Shown (m : Member names) (acts : List Act) (standing : Standing) : Prop where
  lent {c : Connection} : standing.connection? = some c → Member.lent c acts = true
  running : Member.running? acts = standing.running? names
  gripped : m.gripped? acts = standing.gripped?

section Next

variable {u : Party} {reg : Register u} {target : Target}

theorem run_next (h : Next u reg names target standing x standing') :
    Act.run (standing.running? names) x = standing'.running? names := by
  obtain h | h := h
  · cases h with
    | inside h =>
      cases h with
      | starts hnext => exact hnext.symm
      | _ => rfl
    | acquires r => cases r <;> rfl
    | undone hd hrests => cases hrests <;> rfl
    | _ => rfl
  · cases h with
    | committed => rfl
    | given hd hrests => cases hrests <;> rfl
    | left hd hunlock hrests => cases hrests <;> rfl

theorem lend_next (h : Next u reg names target standing x standing') {c : Connection} {lent : Bool}
    (hlent : standing.connection? = some c → lent = true)
    (hc : standing'.connection? = some c) : Act.lend c lent x = true := by
  obtain h | h := h
  · cases h with
    | inside h =>
      cases h with
      | @runs c' start goal k phase y hy =>
        obtain rfl := Option.some.inj hc
        rw [hlent rfl]
        cases y with
        | acquire r => cases r <;> rfl
        | release c'' => simpa [Act.lend, Register.Aloof] using hy
        | _ => rfl
      | _ => exact hlent hc
    | acquires r =>
      cases r with
      | error e => cases hc
      | ok c' =>
        obtain rfl := Option.some.inj hc
        simp [Act.lend]
    | released c' => cases hc
    | undone hd hrests => exact hlent ((connection?_of_rests hrests).trans hc)
    | init r => cases hc
    | _ => exact hlent hc
  · cases h with
    | committed => exact hlent hc
    | given hd hrests => exact hlent ((connection?_of_rests hrests).trans hc)
    | left hd hunlock hrests => cases hc

end Next

variable {m : Member names}

theorem gripped?_ready (m : Member names) (c : Connection) :
    (ready m.party c).gripped? = some c := by rw [ready, m.locks, gripped?]

theorem letGo_gripped? {u : Party} {c : Connection} (h : standing.Rests u c) :
    letGo standing.gripped? c = none := by
  cases h with
  | having granted =>
    cases granted with
    | false => rfl
    | true => exact letGo_self c
  | _ => exact letGo_self c

/-- The act of a run shows whether it has the lock. -/
theorem grip_next (h : Next m.party m.register names m.target standing x standing') :
    m.grip standing.gripped? x = standing'.gripped? := by
  have hundoes := Dialect.locksTransaction_eq m.locks
  have hkept : ∀ {c c' : Connection}, (m.party.dialect.undoesDefinitions = true → c' ≠ c) →
      (if m.party.dialect.locksTransaction then letGo (some c) c' else some c) = some c := by
    intro c c' hc
    split
    · next hlock => exact letGo_of_ne (hc (hundoes ▸ hlock)).symm
    · rfl
  obtain h | h := h
  · cases h with
    | inside h =>
      cases h with
      | unread hq => rw [Member.grip, Member.hold, hq]
      | read hq =>
        rw [Member.grip, Member.hold, hq, gripped?_ready]
        rfl
      | starts => rfl
      | @runs c start goal k phase y hy =>
        show m.grip (some c) (.call y) = some c
        cases y with
        | execute c' q r =>
          rw [Member.grip, Member.hold, show m.register.kind? q.sql q.parameters = none from hy]
        | commit c' r =>
          cases r with
          | error e => rfl
          | ok _ => exact hkept hy
        | rollback c' r => exact hkept hy
        | _ => rfl
      | stops => rfl
      | unbooked hnext hq => rw [Member.grip, Member.hold, hq]
      | booked hnext hq =>
        rw [Member.grip, Member.hold, hq]
        rfl
    | acquires r => cases r <;> rfl
    | tables r hq => rw [Member.grip, Member.hold, hq]
    | denied hq ha =>
      rw [Member.grip, Member.hold, hq, ha]
      exact if_neg fun hgranted => nomatch hgranted.1
    | granted hq ha =>
      rw [Member.grip, Member.hold, hq, ha]
      exact if_pos ⟨rfl, fun _ => rfl⟩
    | undone hd hrests =>
      rw [← hundoes] at hd
      rw [Member.grip, Member.hold, if_pos hd]
      exact letGo_gripped? hrests
    | _ => rfl
  · cases h with
    | committed hd c =>
      rw [← hundoes] at hd
      rw [Member.grip, Member.hold, if_pos hd]
      exact letGo_self c
    | given hd hrests hq =>
      rw [Member.grip, Member.hold, hq]
      exact letGo_gripped? hrests
    | left hd hunlock hrests =>
      rw [← hundoes, Dialect.locksTransaction, hunlock] at hd
      cases hd

section Archive

variable {σ : Type} [DecidableEq σ] {session : Connection → σ} {base : Finset String}
  {a b : Archive σ}

omit [DecidableEq σ] in
/-- What others book is none of a run that does not have the lock. -/
theorem Fits.frame {u : Party} {target : Target}
    (h : standing.Fits u names target session base a)
    (hcommitted : standing.gripped? = none ∨ b.committed = a.committed)
    (hpending : ∀ c, standing.connection? = some c →
      b.pending (session c) = a.pending (session c))
    (hquiet : ∀ c, standing.connection? ≠ some c → b.written (session c) = []) :
    ∃ base', standing.Fits u names target session base' b := by
  have hholds := h.holds
  cases standing with
  | away => exact ⟨b.committed, rfl, hquiet⟩
  | having c begun granted =>
    exact ⟨b.committed, ⟨rfl, (hpending c rfl).trans hholds.2⟩, hquiet⟩
  | steady c start goal k =>
    obtain hno | hcommitted := hcommitted
    · cases hno
    · exact ⟨base, Batching.frame hholds hcommitted (hpending c rfl), hquiet⟩
  | running c start goal k phase =>
    obtain hno | hcommitted := hcommitted
    · cases hno
    · exact ⟨base, ⟨hholds.1.frame hcommitted (hpending c rfl), hholds.2⟩, hquiet⟩
  | booking c start goal k =>
    obtain hno | hcommitted := hcommitted
    · cases hno
    · exact ⟨base, Batching.frame hholds hcommitted (hpending c rfl), hquiet⟩

variable (hnames : names.Pairwise (· < ·)) (hsession : Function.Injective session)
  (hnext : Next m.party m.register names m.target standing x standing')
  (h : standing.Fits m.party names m.target session base a)

include hnames hsession hnext h in
/-- A run that does not have the lock books nothing. -/
theorem Fits.committed_after (hhonest : a.Honest m.register session x)
    (hgripped : standing.gripped? = none) :
    (a.after m.register session x).committed = a.committed := by
  have hheld : ∀ {c}, (ready m.party c).gripped? ≠ none := fun heq => by
    rw [gripped?_ready] at heq
    cases heq
  have hhaving : ∀ {c begun granted c' begun' granted'},
      (having c begun granted).Fits m.party names m.target session base a →
      (having c' begun' granted').Fits m.party names m.target session base
        (a.after m.register session x) →
      (a.after m.register session x).committed = a.committed :=
    fun h h' => h'.holds.1.trans h.holds.1.symm
  obtain hopen | hcloses := hnext
  · have h' := h.open hnames hsession hopen hhonest
    cases hopen with
    | inside hinside =>
      cases hinside with
      | unread => exact absurd hgripped hheld
      | read => exact absurd hgripped hheld
      | _ => cases hgripped
    | init => rfl
    | acquires r => cases r <;> rfl
    | released => rfl
    | uncommitted => rfl
    | undone hd hrests =>
      cases hrests with
      | having granted => exact hhaving h h'
      | _ => cases hgripped
    | _ => exact hhaving h h'
  · have h' := h.closes hsession hcloses
    cases hcloses with
    | committed => cases hgripped
    | given hd hrests =>
      cases hrests with
      | having granted => exact hhaving h h'
      | _ => cases hgripped
    | left => rfl

omit [DecidableEq σ] in
include hnext h in
/-- A run asks for the lock in its transaction, where there is one. -/
theorem Fits.isSome_of_lock {c : Connection} {q : Compiled} {r : Except Error QueryResult}
    (hx : x = .call (.execute c q r))
    (hq : m.register.kind? q.sql q.parameters = some .lock)
    (ha : (m.party.dialect.verdict r).isOk = true) :
    m.party.dialect.undoesDefinitions = true → (a.pending (session c)).isSome = true := by
  intro hd
  subst hx
  have hno : ∀ {e}, m.register.kind? q.sql q.parameters = e → e ≠ some .lock → False :=
    fun heq hne => hne (heq.symm.trans hq)
  obtain hopen | hcloses := hnext
  · cases hopen with
    | inside hinside =>
      cases hinside with
      | unread hq' => exact (hno hq' nofun).elim
      | read hq' => exact (hno hq' nofun).elim
      | runs hy => exact (hno hy nofun).elim
      | unbooked _ hq' => exact (hno hq' nofun).elim
      | booked _ hq' => exact (hno hq' nofun).elim
    | tables _ hq' => exact (hno hq' nofun).elim
    | denied hq' hverdict =>
      rw [hverdict] at ha
      cases ha
    | granted hq' hverdict => rw [h.holds.2, if_pos hd]; rfl
  · cases hcloses with
    | given _ _ hq' => exact (hno hq' nofun).elim

end Archive

/-- The history is read under the lock. -/
theorem gripped?_of_read {c : Connection} {q : Compiled} {r : Except Error QueryResult}
    (h : Next m.party m.register names m.target standing (.call (.execute c q r)) standing')
    (hq : m.register.kind? q.sql q.parameters = some .read) : standing.gripped? = some c := by
  have hno : ∀ {e}, m.register.kind? q.sql q.parameters = e → e ≠ some .read → False :=
    fun heq hne => hne (heq.symm.trans hq)
  obtain hopen | hcloses := h
  · cases hopen with
    | inside hinside =>
      cases hinside with
      | unread => exact gripped?_ready m c
      | read => exact gripped?_ready m c
      | runs hy => exact (hno hy nofun).elim
      | unbooked _ hq' => exact (hno hq' nofun).elim
      | booked _ hq' => exact (hno hq' nofun).elim
    | tables _ hq' => exact (hno hq' nofun).elim
    | denied hq' => exact (hno hq' nofun).elim
    | granted hq' => exact (hno hq' nofun).elim
  · cases hcloses with
    | given _ _ hq' => exact (hno hq' nofun).elim

theorem shown_nil (m : Member names) : Shown m [] .away := ⟨nofun, rfl, rfl⟩

theorem Shown.next {acts : List Act} (h : Shown m acts standing)
    (hnext : Next m.party m.register names m.target standing x standing') :
    Shown m (acts ++ [x]) standing' where
  lent hc := by
    rw [Member.lent, List.foldl_append]
    exact lend_next hnext h.lent hc
  running := by
    rw [Member.running?, List.foldl_append, ← run_next hnext, ← h.running]
    rfl
  gripped := by
    rw [Member.gripped?, List.foldl_append, ← grip_next hnext, ← h.gripped]
    rfl

end Standing

namespace Member

variable {names : List String}

theorem Path.runs {m : Member names} {acts : List Act} (h : m.Path acts) :
    Runs (Next m.party m.register names m.target) .away acts .away := by
  obtain ⟨s, r, t, hdoes⟩ := h
  obtain ⟨b, -, hcomes⟩ := comes_run m.keeps hdoes
  rw [m.party.names_watched, m.named] at hcomes
  exact hcomes.runs

theorem sorted (m : Member names) : names.Pairwise (· < ·) := by
  rw [← m.named]
  exact m.party.names_sorted m.registered

end Member

end SqlTree
