import SqlTree.Proofs.Database.Tape
import Mathlib.Data.List.Induction

/-!
# Open transactions on a tape

From the calls of a driver alone: what has become of the last transaction on a connection
(`Call.phase`), and whether a connection was given back with a transaction open
(`ReturnsOpen`).
-/

namespace SqlTree

/-- What has become of the last transaction on a connection. -/
inductive Phase where
  /-- There was none, or it was committed or undone. -/
  | idle
  /-- It was begun, and nobody has tried to end it. -/
  | going
  /-- A commit failed, and it was not undone since. -/
  | unsettled
  deriving DecidableEq, Repr

namespace Call

/-- Whether a call ends transactions on a connection: a commit that succeeds, or any attempt to undo
them. -/
def settles (c : Connection) : Call → Bool
  | .commit c' (.ok _) => c' = c
  | .rollback c' _ => c' = c
  | _ => false

def nextPhase (c : Connection) (k : Phase) : Call → Phase
  | .begin c' _ (.ok _) => if c' = c then .going else k
  | .commit c' (.ok _) => if c' = c then .idle else k
  | .commit c' (.error _) => if c' = c ∧ k ≠ .idle then .unsettled else k
  | .rollback c' _ => if c' = c then .idle else k
  | _ => k

def phase (c : Connection) (calls : List Call) : Phase := calls.foldl (nextPhase c) .idle

@[simp] theorem phase_nil (c : Connection) : phase c [] = .idle := rfl

theorem phase_append (c : Connection) (xs ys : List Call) :
    phase c (xs ++ ys) = ys.foldl (nextPhase c) (phase c xs) := List.foldl_append

theorem phase_concat (c : Connection) (xs : List Call) (x : Call) :
    phase c (xs ++ [x]) = nextPhase c (phase c xs) x := phase_append c xs [x]

theorem phase_rollback (c : Connection) (xs : List Call) (a : Except Error Unit) :
    phase c (xs ++ [.rollback c a]) = .idle := by
  simp [phase_concat, nextPhase]

theorem phase_commit_ne_going (c : Connection) (xs : List Call) (a : Except Error Unit) :
    phase c (xs ++ [.commit c a]) ≠ .going := by
  rw [phase_concat]
  cases a with
  | ok a => simp [nextPhase]
  | error e => cases h : phase c xs <;> simp [nextPhase]

theorem phase_commit_ne_idle_iff {c : Connection} {xs : List Call} {a : Except Error Unit} :
    phase c (xs ++ [.commit c a]) ≠ .idle ↔ phase c xs ≠ .idle ∧ ∃ e, a = .error e := by
  rw [phase_concat]
  cases a with
  | ok a => simp [nextPhase]
  | error e => cases h : phase c xs <;> simp [nextPhase]

/-- Calls that neither begin nor end a transaction. -/
def isQuiet : Call → Bool
  | .begin _ _ (.ok _) => false
  | .commit .. => false
  | .rollback .. => false
  | _ => true

theorem nextPhase_of_isQuiet {x : Call} (h : x.isQuiet = true) (c : Connection) (k : Phase) :
    nextPhase c k x = k := by
  cases x with
  | begin c' s a =>
    cases a with
    | error e => rfl
    | ok a => cases h
  | commit c' a => cases h
  | rollback c' a => cases h
  | _ => rfl

theorem phase_append_quiet {ys : List Call} (h : ∀ y ∈ ys, y.isQuiet = true) (c : Connection)
    (xs : List Call) : phase c (xs ++ ys) = phase c xs := by
  induction ys generalizing xs with
  | nil => rw [List.append_nil]
  | cons y ys ih =>
    obtain ⟨hy, hys⟩ := List.forall_mem_cons.mp h
    rw [List.append_cons, ih hys, phase_concat, nextPhase_of_isQuiet hy]

/-- The connection a call is about. -/
def connection? : Call → Option Connection
  | .release c => some c
  | .execute c .. => some c
  | .stream c .. => some c
  | .begin c .. => some c
  | .commit c _ => some c
  | .rollback c _ => some c
  | .savepoint c .. => some c
  | .rollbackTo c .. => some c
  | .releaseSavepoint c .. => some c
  | _ => none

theorem nextPhase_of_connection? {x : Call} {c c' : Connection} (h : x.connection? = some c)
    (hc : c' ≠ c) (k : Phase) : nextPhase c' k x = k := by
  have hne : c ≠ c' := fun h => hc h.symm
  cases x with
  | begin c s a =>
    obtain rfl : c = _ := Option.some.inj h
    cases a with
    | error e => rfl
    | ok a => exact if_neg hne
  | commit c a =>
    obtain rfl : c = _ := Option.some.inj h
    cases a with
    | error e => exact if_neg fun h => hne h.1
    | ok a => exact if_neg hne
  | rollback c a =>
    obtain rfl : c = _ := Option.some.inj h
    exact if_neg hne
  | _ => rfl

/-- Calls about one connection leave the transactions on the others as they are. -/
theorem phase_append_other {c c' : Connection} {ys : List Call}
    (h : ∀ y ∈ ys, y.connection? = some c) (hc : c' ≠ c) (xs : List Call) :
    phase c' (xs ++ ys) = phase c' xs := by
  induction ys generalizing xs with
  | nil => rw [List.append_nil]
  | cons y ys ih =>
    obtain ⟨hy, hys⟩ := List.forall_mem_cons.mp h
    rw [List.append_cons, ih hys, phase_concat, nextPhase_of_connection? hy hc]

theorem acquired_of_connection? {c : Connection} {ys : List Call}
    (h : ∀ y ∈ ys, y.connection? = some c) : acquired ys = 0 := by
  induction ys with
  | nil => rfl
  | cons y ys ih =>
    obtain ⟨hy, hys⟩ := List.forall_mem_cons.mp h
    cases y with
    | acquire a => cases hy
    | _ => exact ih hys

theorem nextPhase_ne_idle_iff {c : Connection} {k : Phase} {x : Call} :
    nextPhase c k x ≠ .idle ↔
      (∃ s, x = .begin c s (.ok ())) ∨ k ≠ .idle ∧ x.settles c = false := by
  cases x with
  | begin c' s a =>
    cases a with
    | error e => simp [nextPhase, settles]
    | ok a =>
      by_cases hc : c' = c
      · simp [nextPhase, settles, hc]
      · simp [nextPhase, settles, hc]
  | commit c' a =>
    cases a with
    | error e =>
      by_cases hc : c' = c ∧ k ≠ .idle
      · simp [nextPhase, settles, hc]
      · simp only [nextPhase, if_neg hc, settles, reduceCtorEq, exists_false, false_or, and_true]
    | ok a =>
      by_cases hc : c' = c
      · simp [nextPhase, settles, hc]
      · simp [nextPhase, settles, hc]
  | rollback c' a =>
    by_cases hc : c' = c
    · simp [nextPhase, settles, hc]
    · simp [nextPhase, settles, hc]
  | _ => simp [nextPhase, settles]

/-- A transaction is open from its beginning until a commit succeeds or undoing is attempted. -/
theorem phase_ne_idle_iff {c : Connection} {calls : List Call} :
    phase c calls ≠ .idle ↔ ∃ before s between, calls = before ++ .begin c s (.ok ()) :: between ∧
      ∀ x ∈ between, x.settles c = false := by
  induction calls using List.reverseRecOn with
  | nil => simp
  | append_singleton calls x ih =>
    rw [phase_concat, nextPhase_ne_idle_iff, ih]
    constructor
    · rintro (⟨s, rfl⟩ | ⟨⟨before, s, between, rfl, hbetween⟩, hx⟩)
      · exact ⟨calls, s, [], rfl, by simp⟩
      · exact ⟨before, s, between ++ [x], by simp, by simpa [hx, or_imp, forall_and] using hbetween⟩
    · rintro ⟨before, s, between, heq, hbetween⟩
      rcases List.eq_nil_or_concat between with rfl | ⟨between, y, rfl⟩
      · obtain ⟨rfl, hx⟩ := List.append_inj' heq rfl
        exact .inl ⟨s, List.singleton_inj.mp hx⟩
      · have heq : calls ++ [x] = (before ++ .begin c s (.ok ()) :: between) ++ [y] := by
          simpa using heq
        obtain ⟨rfl, hx⟩ := List.append_inj' heq rfl
        obtain rfl := List.singleton_inj.mp hx
        refine .inr ⟨⟨before, s, between, rfl, fun z hz => hbetween z (by simp [hz])⟩, ?_⟩
        exact hbetween x (by simp)

end Call

/-- Among the items `ys` after `xs`, one has a property, which may depend on those before it. -/
def Occurs {α : Type} (P : List α → α → Prop) (xs ys : List α) : Prop :=
  ∃ before x after, ys = before ++ x :: after ∧ P (xs ++ before) x

section Occurs

variable {α : Type} {P : List α → α → Prop} {x : α} {xs ys zs : List α}

theorem occurs_append : Occurs P xs (ys ++ zs) ↔ Occurs P xs ys ∨ Occurs P (xs ++ ys) zs := by
  constructor
  · rintro ⟨before, x, after, heq, h⟩
    obtain ⟨bs, rfl, hzs⟩ | ⟨bs, rfl, hbs⟩ := List.append_eq_append_iff.mp heq
    · exact .inr ⟨bs, x, after, hzs, by rwa [List.append_assoc]⟩
    · cases bs with
      | nil => exact .inr ⟨[], x, after, hbs.symm, by simpa using h⟩
      | cons y bs =>
        obtain ⟨rfl, rfl⟩ := List.cons_eq_cons.mp hbs
        exact .inl ⟨before, x, bs, rfl, h⟩
  · rintro (⟨before, x, after, rfl, h⟩ | ⟨before, x, after, rfl, h⟩)
    · exact ⟨before, x, after ++ zs, by simp, h⟩
    · exact ⟨ys ++ before, x, after, by simp, by rwa [← List.append_assoc]⟩

theorem occurs_singleton : Occurs P xs [x] ↔ P xs x := by
  constructor
  · rintro ⟨before, y, after, heq, h⟩
    cases before with
    | nil =>
      obtain ⟨rfl, -⟩ := List.cons_eq_cons.mp heq
      simpa using h
    | cons z before => simp at heq
  · exact fun h => ⟨[], x, [], rfl, by simpa using h⟩

theorem occurs_cons : Occurs P xs (x :: ys) ↔ P xs x ∨ Occurs P (xs ++ [x]) ys := by
  rw [← List.singleton_append, occurs_append, occurs_singleton]

/-- Items of which none could have the property. -/
theorem not_occurs_of_forall (h : ∀ y ∈ ys, ∀ before, ¬ P before y) : ¬ Occurs P xs ys := by
  rintro ⟨before, x, after, rfl, hP⟩
  exact h x (by simp) _ hP

end Occurs

/-- Some connection `c` is given back after a transaction was begun on it, without a commit that
succeeded or an attempt to undo it in between. -/
def ReturnsOpen (calls : List Call) (c : Connection) : Prop :=
  ∃ before s between after,
    calls = before ++ .begin c s (.ok ()) :: between ++ .release c :: after ∧
      ∀ x ∈ between, x.settles c = false

/-- Among the calls `ys` after `xs`, the connection is given back with a transaction open. -/
def Returned (c : Connection) (xs ys : List Call) : Prop :=
  ∃ before after, ys = before ++ .release c :: after ∧ Call.phase c (xs ++ before) ≠ .idle

theorem returnsOpen_iff {calls : List Call} {c : Connection} :
    ReturnsOpen calls c ↔ Returned c [] calls := by
  constructor
  · rintro ⟨before, s, between, after, rfl, h⟩
    exact ⟨_, after, rfl, Call.phase_ne_idle_iff.mpr ⟨before, s, between, rfl, h⟩⟩
  · rintro ⟨_, after, rfl, h⟩
    obtain ⟨before, s, between, hcalls, h⟩ := Call.phase_ne_idle_iff.mp h
    rw [List.nil_append] at hcalls
    exact ⟨before, s, between, after, by rw [hcalls], h⟩

theorem returned_iff_occurs {c : Connection} {xs ys : List Call} :
    Returned c xs ys ↔
      Occurs (fun before x => x = .release c ∧ Call.phase c before ≠ .idle) xs ys := by
  constructor
  · rintro ⟨before, after, rfl, h⟩
    exact ⟨before, _, after, rfl, rfl, h⟩
  · rintro ⟨before, _, after, rfl, rfl, h⟩
    exact ⟨before, after, rfl, h⟩

theorem returned_append {c : Connection} {xs ys zs : List Call} :
    Returned c xs (ys ++ zs) ↔ Returned c xs ys ∨ Returned c (xs ++ ys) zs := by
  simp only [returned_iff_occurs, occurs_append]

theorem not_returned_nil {c : Connection} {xs : List Call} : ¬ Returned c xs [] := by
  rintro ⟨before, after, h, -⟩
  simp at h

theorem returned_singleton {c : Connection} {xs : List Call} {x : Call} :
    Returned c xs [x] ↔ x = .release c ∧ Call.phase c xs ≠ .idle :=
  returned_iff_occurs.trans occurs_singleton

/-- Only calls that give the connection back can give it back open. -/
theorem not_returned_of_not_mem {c : Connection} {xs ys : List Call}
    (h : Call.release c ∉ ys) : ¬ Returned c xs ys := by
  rintro ⟨before, after, rfl, -⟩
  simp at h

theorem returned_concat_release {c d : Connection} {xs ys : List Call} (h : Call.release c ∉ ys) :
    Returned c xs (ys ++ [.release d]) ↔ c = d ∧ Call.phase d (xs ++ ys) ≠ .idle := by
  rw [returned_append, returned_singleton, Call.release.injEq,
    or_iff_right (not_returned_of_not_mem h)]
  constructor
  · rintro ⟨rfl, hopen⟩
    exact ⟨rfl, hopen⟩
  · rintro ⟨rfl, hopen⟩
    exact ⟨rfl, hopen⟩

end SqlTree
