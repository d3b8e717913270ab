import SqlTree.Proofs.Migrate.Bookkeeping
import Mathlib.Logic.Relation

/-!
# Histories

A run refuses a history that is no prefix of the names.  Otherwise it leaves a prefix of the names
again, and without an error that of its target (`Migrator.keeps_history`).
-/

namespace SqlTree

open Migrate

variable {σ : Type} [DecidableEq σ]

namespace Migrate

/-- Where a run may leave the books. -/
structure Lands (u : Party) (names : List String) (target : Target) (books : Finset String)
    (acts : List Act) (b : Batch) (books' : Finset String) : Prop where
  /-- The history is no prefix of the names, or the target is none of them. -/
  refused : ¬listed books <+: names ∨ target.goal? names (listed books).length = none →
    b.error ≠ none ∧ (∀ x ∈ acts, ∃ y, x = .call y) ∧ books' = books
  in_range : listed books <+: names → Plan.sliced? names (listed books).length target =
    some (Plan.of names (listed books).length target)
  /-- The run goes on from where the history ends, and reaches its goal or fails. -/
  landed {goal : Nat} : listed books <+: names →
    target.goal? names (listed books).length = some goal →
      ∃ k ≤ names.length, Between (listed books).length goal k ∧ listed books' = names.take k ∧
        (b.error = none → k = goal) ∧
        (u.dialect.undoesDefinitions = true → b.error ≠ none → k = (listed books).length)

/-- A run by a migrator of these names, on a database with these books, that answers honestly. -/
inductive Brings {u : Party} (reg : Register u) (session : Connection → σ) (names : List String)
    (target : Target) (books : Finset String) :
    List Act → Except Error Batch → Finset String → Prop
  | run {registered : List (String × Migration Paths)} (hkeeps : ∀ x ∈ registered, x.2.Keeps reg)
    (hnames : (u.migrator registered).names = names) {s t : Shared} {acts : List Act}
    {r : Except Error Batch}
    (hdoes : ((u.migrator (watched registered)).run target).Does s acts r t)
    (hfaithful : Archive.Faithful { committed := books } reg session acts) :
    Brings reg session names target books acts r
      (Archive.run { committed := books } reg session acts).committed

end Migrate

namespace Standing

variable {u : Party} {reg : Register u} {session : Connection → σ} {names : List String}
  {target : Target} {books : Finset String} {acts : List Act} {error : Option Error}

omit [DecidableEq σ] in
/-- A database where nothing goes on. -/
theorem fits_away (u : Party) (names : List String) (target : Target) (session : Connection → σ)
    (books : Finset String) : away.Fits u names target session books { committed := books } :=
  ⟨rfl, fun _ _ => rfl⟩

section Comes

variable (hnames : names.Pairwise (· < ·)) (hsession : Function.Injective session)
  (h : Comes u reg names target acts error)
  (hfaithful : Archive.Faithful { committed := books } reg session acts)
include hnames hsession h hfaithful

/-- A run leaves the books as they are, or somewhere on the way to its goal. -/
theorem Comes.leaves :
    error ≠ none ∧ (Archive.run { committed := books } reg session acts).committed = books ∨
      ∃ start goal k, books = first names start ∧ start ≤ names.length ∧
        target.goal? names start = some goal ∧ goal ≤ names.length ∧ Between start goal k ∧
        (Archive.run { committed := books } reg session acts).committed = first names k ∧
        (error = none → k = goal) ∧ (u.dialect.undoesDefinitions = true → error = none) := by
  have haway := fits_away u names target session books
  cases h with
  | nothing hruns => exact .inl ⟨nofun, (haway.runs hnames hsession hruns hfaithful).holds⟩
  | @final before after x standing standing' error hbefore hcloses hafter hgoal hundoes =>
    have hstanding := haway.runs hnames hsession hbefore hfaithful.left
    have hclosed := hstanding.closes hsession hcloses
    have hleft := (hclosed.runs hnames hsession hafter hfaithful.right.tail).holds
    rw [Archive.run_append]
    have herror : (∀ c start goal, standing ≠ .steady c start goal goal) → error ≠ none :=
      fun hne heq => by
        obtain ⟨c, start, goal, heq⟩ := hgoal heq
        exact hne c start goal heq
    cases standing with
    | away => exact .inl ⟨herror nofun, hleft⟩
    | having c begun granted => exact .inl ⟨herror nofun, hleft⟩
    | running c start goal k phase => exact .inl ⟨herror nofun, hleft⟩
    | steady c start goal k =>
      have hb := hstanding.holds
      refine .inr ⟨start, goal, k, hb.base_eq, hb.start_le, hb.goal_eq, hb.goal_le, hb.between,
        hleft, fun heq => ?_, hundoes⟩
      obtain ⟨_, _, _, heq⟩ := hgoal heq
      cases heq
      rfl
    | booking c start goal k =>
      have hb := hstanding.holds
      exact .inr ⟨start, goal, k, hb.base_eq, hb.start_le, hb.goal_eq, hb.goal_le, hb.between,
        hleft, fun heq => absurd heq (herror nofun), hundoes⟩

/-- Migrations run only if the history is accepted and the target is known. -/
theorem Comes.exists_of_mem {x : Act} (hx : x ∈ acts) : (∃ y, x = .call y) ∨
    ∃ start ≤ names.length, books = first names start ∧
      (target.goal? names start).isSome = true := by
  have haway := fits_away u names target session books
  cases h with
  | nothing hruns => exact haway.exists_of_mem hnames hsession hruns hfaithful hx
  | @final before after y standing standing' error hbefore hcloses hafter hgoal hundoes =>
    have hstanding := haway.runs hnames hsession hbefore hfaithful.left
    have hclosed := hstanding.closes hsession hcloses
    obtain hx | rfl | hx : x ∈ before ∨ x = y ∨ x ∈ after := by simpa using hx
    · exact haway.exists_of_mem hnames hsession hbefore hfaithful.left hx
    · cases hcloses <;> exact .inl ⟨_, rfl⟩
    · obtain hcall | hstart :=
        hclosed.exists_of_mem hnames hsession hafter hfaithful.right.tail hx
      · exact .inl hcall
      · cases standing with
        | steady => exact .inr (Batching.exists_start hstanding.holds)
        | booking => exact .inr (Batching.exists_start hstanding.holds)
        | _ => exact .inr hstart

/-- Where a run leaves the books. -/
theorem Comes.lands {b : Batch} (hb : b.error = error) :
    Lands u names target books acts b
      (Archive.run { committed := books } reg session acts).committed := by
  -- the books can be those of a prefix of the names in one way only
  have hone : ∀ {start}, books = first names start → start ≤ names.length →
      listed books <+: names ∧ (listed books).length = start := by
    rintro start rfl hstart
    exact ⟨(listed_isPrefix_iff hnames).mpr ⟨start, hstart, rfl⟩,
      length_listed_first hnames hstart⟩
  have hbooks := h.leaves hnames hsession hfaithful
  subst hb
  constructor
  · intro hrefused
    have hno : ∀ {start}, books = first names start → start ≤ names.length →
        target.goal? names start ≠ none → False := by
      intro start hstart hle hgoal
      obtain ⟨hlisted, rfl⟩ := hone hstart hle
      obtain hnot | hnone := hrefused
      · exact hnot hlisted
      · exact hgoal hnone
    obtain ⟨herror, hsame⟩ | ⟨start, goal, k, hstart, hle, hgoal, -⟩ := hbooks
    · refine ⟨herror, fun x hx => ?_, hsame⟩
      obtain hcall | ⟨start, hle, hstart, hgoal⟩ := h.exists_of_mem hnames hsession hfaithful hx
      · exact hcall
      · exact absurd hgoal fun hsome => hno hstart hle (Option.isSome_iff_ne_none.mp hsome)
    · exact absurd hgoal fun hsome => hno hstart hle (by rw [hsome]; nofun)
  · exact fun hlisted => Plan.sliced?_eq hlisted.length_le target
  · intro goal hlisted hgoal
    obtain ⟨herror, hsame⟩ | ⟨start, goal', k, hstart, hle, hgoal', hle', hbetween, hk, hnone,
      hundoes⟩ := hbooks
    · refine ⟨(listed books).length, hlisted.length_le, ?_, ?_, ?_, fun _ _ => rfl⟩
      · exact (le_total _ goal).imp (fun h => ⟨le_rfl, h⟩) fun h => ⟨h, le_rfl⟩
      · rw [hsame]
        exact List.prefix_iff_eq_take.mp hlisted
      · exact fun heq => absurd heq herror
    · obtain ⟨-, rfl⟩ := hone hstart hle
      obtain rfl := Option.some.inj (hgoal.symm.trans hgoal')
      refine ⟨k, ?_, hbetween, by rw [hk, listed_first hnames], hnone, fun hd herror => ?_⟩
      · unfold Between at hbetween
        omega
      · exact absurd (hundoes hd) herror

end Comes

end Standing

namespace Migrator

/-- The names are in order however the migrations were registered.  A run always answers.  If the
history is no prefix of the names, or the target is unknown, it fails, runs no migration and leaves
the books; otherwise its plan is in range, and it leaves the books of a prefix between the history
and its goal: that of the goal without an error, and that of the history after an error where a
transaction undoes what was done.  So histories stay prefixes from run to run. -/
theorem keeps_history {u : Party} (reg : Register u) {session : Connection → σ}
    (hsession : Function.Injective session) (registered : List (String × Migration Paths)) :
    let names := (u.migrator registered).names
    names.Pairwise (· < ·) ∧
      (∀ registered', registered'.Perm registered → (u.migrator registered').names = names) ∧
      (∀ target books acts r books', Brings reg session names target books acts r books' →
        ∃ b, r = .ok b ∧ Lands u names target books acts b books') ∧
      ∀ books books', Relation.ReflTransGen (fun books books' =>
          ∃ target acts r, Brings reg session names target books acts r books') books books' →
        listed books <+: names → listed books' <+: names := by
  intro names
  have hnames : names.Pairwise (· < ·) := u.names_sorted registered
  have hlands : ∀ {target books acts r books'},
      Brings reg session names target books acts r books' →
        ∃ b, r = .ok b ∧ Lands u names target books acts b books' := by
    intro target books acts r books' h
    cases h with
    | @run registered' hkeeps heq s t acts r hdoes hfaithful =>
      obtain ⟨b, rfl, hcomes⟩ := Standing.comes_run hkeeps hdoes
      rw [u.names_watched, heq] at hcomes
      exact ⟨b, rfl, hcomes.lands hnames hsession hfaithful rfl⟩
  refine ⟨hnames, fun registered' hperm => ?_, fun _ _ _ _ _ => hlands, fun books books' h => ?_⟩
  · exact u.names_eq_of_mem_iff _ fun n => (hperm.map Prod.fst).mem_iff
  · intro hlisted
    induction h with
    | refl => exact hlisted
    | tail _ hstep ih =>
      obtain ⟨target, acts, r, h⟩ := hstep
      obtain ⟨b, -, hland⟩ := hlands h
      cases hgoal : target.goal? names (listed _).length with
      | none =>
        rw [(hland.refused (.inr hgoal)).2.2]
        exact ih
      | some goal =>
        obtain ⟨k, -, -, hk, -⟩ := hland.landed ih hgoal
        rw [hk]
        exact List.take_prefix k names

/-- From empty books, a run that executes the only migration books it. -/
theorem keeps_history_mysql :
    let registered : List (String × Migration Paths) :=
      [("a", .statements [⟨.raw ["create table t (id int)"] []⟩] [])]
    let answer : Except Error Batch := .ok ⟨[⟨"a", .up, .success⟩], none⟩
    ∃ acts, Function.Injective (id : Connection → Connection) ∧
      Brings (Register.plain .mysql) id ["a"] .latest ∅ acts answer {"a"} ∧
      (({ dialect := .mysql } : Party).migrator registered).names = ["a"] ∧
      ∃ b, answer = .ok b ∧ Lands { dialect := .mysql } ["a"] .latest ∅ acts b {"a"} := by
  obtain ⟨q, hq, hnone⟩ := Register.exists_plain_eq_none
  -- nothing else is to be known of the statement and of the register
  generalize (⟨.raw ["create table t (id int)"] []⟩ : Node) = n at hq ⊢
  generalize Register.plain .mysql = reg at hnone ⊢
  intro registered answer
  have hsession : Function.Injective (id : Connection → Connection) := Function.injective_id
  obtain ⟨q₁, q₂, q₃, lock, q₄, q₅, unlock, acts, t, h₁, h₂, h₃, hlock, h₄, h₅, hunlock, hacts,
    hdoes⟩ := Standing.exists_path_mysql reg "a" hq ⟨0⟩
  have hhistory : history (({ dialect := .mysql } : Party).receive (.ok {})) = .ok [] := rfl
  have hrun : (Archive.run { committed := ∅ } reg id acts).committed = {"a"} := by
    simp [hacts, Archive.run, Archive.after, Archive.write, Archive.set, book, h₁, h₂, h₃, hlock,
      h₄, hnone, h₅, hunlock]
  have hfaithful : Archive.Faithful { committed := ∅ } reg id acts := by
    simp [hacts, Archive.Honest, Archive.after, Archive.view, Archive.written, Archive.set, h₁, h₂,
      h₃, hlock, h₄, hnone, h₅, hunlock, hhistory]
  have hkeeps : ∀ x ∈ registered, x.2.Keeps reg := by
    intro x hx
    obtain rfl := List.mem_singleton.mp hx
    exact Migration.keeps_single hq hnone
  have hbrings : Brings reg id ["a"] .latest ∅ acts answer {"a"} := by
    rw [← hrun]
    exact .run hkeeps rfl hdoes hfaithful
  exact ⟨acts, hsession, hbrings, rfl,
    (keeps_history reg hsession registered).2.2.1 .latest ∅ acts answer {"a"} hbrings⟩

end Migrator

end SqlTree
