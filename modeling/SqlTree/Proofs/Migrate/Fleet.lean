import SqlTree.Proofs.Migrate.Members
import Mathlib.Logic.Relation

/-!
# Migrators at work together

Any number of runs, each by a program of its own, on one database.  Their acts come in any order; a
program may die at any time, and a session ends some time after nobody uses it any longer.  The lock
admits one holder, and it alone reads the history and runs migrations (`Fleet.excludes`).
-/

namespace SqlTree

open Migrate Standing

/-- Runs under way on one database: its books, who has the lock, and what every run did. -/
structure Fleet (ι : Type) where
  archive : Archive (ι × Connection)
  holder : Option (ι × Connection) := none
  made : ι → List Act := fun _ => []
  dead : ι → Bool := fun _ => false

namespace Fleet

variable {ι : Type} [DecidableEq ι] {names : List String} (members : ι → Member names)
  (f : Fleet ι)

/-- Who has the lock behind an act of a run. -/
def hold (i : ι) (x : Act) : Option (ι × Connection) :=
  (members i).hold (fun c => (i, c)) (fun c => (f.archive.pending (i, c)).isSome) f.holder x

/-- The database answers honestly, and grants the lock to one session at a time. -/
structure Admits (i : ι) (x : Act) : Prop where
  honest : f.archive.Honest (members i).register (fun c => (i, c)) x
  lock {c : Connection} {q : Compiled} {a : Except Error QueryResult}
    (hx : x = .call (.execute c q a))
    (hq : (members i).register.kind? q.sql q.parameters = some .lock)
    (ha : ((members i).party.dialect.verdict a).isOk = true) :
    f.holder = none ∨ f.holder = some (i, c)

def act (i : ι) (x : Act) : Fleet ι where
  archive := f.archive.after (members i).register (fun c => (i, c)) x
  holder := f.hold members i x
  made := Function.update f.made i (f.made i ++ [x])
  dead := f.dead

def die (i : ι) : Fleet ι := { f with dead := Function.update f.dead i true }

/-- The end of a session. -/
def hangUp (i : ι) (c : Connection) : Fleet ι :=
  { f with archive := f.archive.set (i, c) none, holder := letGo f.holder (i, c) }

inductive Step : Fleet ι → Fleet ι → Prop
  | act {f : Fleet ι} {i : ι} {x : Act} {rest : List Act} (halive : f.dead i = false)
    (hpath : (members i).Path (f.made i ++ x :: rest)) (hadmits : f.Admits members i x) :
    Step f (f.act members i x)
  | die (f : Fleet ι) (i : ι) : Step f (f.die i)
  | hangUp {f : Fleet ι} {i : ι} {c : Connection}
    (hunused : f.dead i = true ∨ Member.lent c (f.made i) = false) : Step f (f.hangUp i c)

/-- A run reads the history next, or is running a migration. -/
def Busy (i : ι) : Prop :=
  (Member.running? (f.made i)).isSome = true ∨
    ∃ c q a rest, (members i).Path (f.made i ++ .call (.execute c q a) :: rest) ∧
      (members i).register.kind? q.sql q.parameters = some .read

/-- Where a run stands, seen from what it did and from the database. -/
structure Stands (i : ι) (rest : List Act) (standing : Standing) (base : Finset String) : Prop where
  shown : Shown (members i) (f.made i) standing
  runs : Runs (Next (members i).party (members i).register names (members i).target) standing rest
    .away
  fits : standing.Fits (members i).party names (members i).target (fun c => (i, c)) base f.archive
  holds {c : Connection} : standing.gripped? = some c → f.holder = some (i, c)

structure Sound : Prop where
  listed : listed f.archive.committed <+: names
  paths {i : ι} : f.made i ≠ [] → ∃ rest, (members i).Path (f.made i ++ rest)
  stands {i : ι} {rest : List Act} : f.dead i = false → (members i).Path (f.made i ++ rest) →
    ∃ standing base, f.Stands members i rest standing base

variable {members f}

section Fields

variable {i j : ι} {x : Act}

@[simp] theorem made_act_self : (f.act members i x).made i = f.made i ++ [x] :=
  Function.update_self ..

theorem made_act_of_ne (h : j ≠ i) : (f.act members i x).made j = f.made j :=
  Function.update_of_ne h ..

omit members in
theorem ne_of_die (h : (f.die i).dead j = false) : j ≠ i ∧ f.dead j = false := by
  change Function.update f.dead i true j = false at h
  by_cases hne : j = i
  · subst hne
    rw [Function.update_self] at h
    cases h
  · rw [Function.update_of_ne hne] at h
    exact ⟨hne, h⟩

end Fields

section Step

variable {i j : ι} {x : Act} {rest : List Act} {standing : Standing} {base : Finset String}

/-- What an act of one run does to the lock of another one: nothing. -/
theorem hold_of_ne {c : Connection} (hadmits : f.Admits members i x)
    (h : f.holder = some (j, c)) (hne : j ≠ i) : f.hold members i x = some (j, c) := by
  have hletGo : ∀ c', letGo f.holder (i, c') = some (j, c) := fun c' =>
    letGo_eq_some.mpr ⟨h, fun heq => hne (Prod.mk.inj heq).1⟩
  have hends : ∀ c', (if (members i).party.dialect.locksTransaction then letGo f.holder (i, c')
      else f.holder) = some (j, c) := fun c' => by
    split
    · exact hletGo c'
    · exact h
  cases x with
  | starts direction name => exact h
  | stops direction name => exact h
  | call x =>
    cases x with
    | execute c' q r =>
      rw [hold, Member.hold]
      split
      · next hq =>
        split
        · next hgranted =>
          obtain hnone | hsome := hadmits.lock rfl hq hgranted.1
          · cases h.symm.trans hnone
          · exact absurd (Prod.mk.inj (Option.some.inj (h.symm.trans hsome))).1 hne
        · exact h
      · exact hletGo c'
      · exact h
    | commit c' r =>
      cases r with
      | ok _ => exact hends c'
      | error e => exact h
    | rollback c' r => exact hends c'
    | _ => exact h

/-- A run that has the lock behind its act is the holder. -/
theorem Stands.hold {c : Connection} (h : f.Stands members i (x :: rest) standing base)
    (hgrip : (members i).grip standing.gripped? x = some c) :
    f.hold members i x = some (i, c) := by
  have hends : ∀ c', (if (members i).party.dialect.locksTransaction then
      letGo standing.gripped? c' else standing.gripped?) = some c →
      (if (members i).party.dialect.locksTransaction then letGo f.holder (i, c')
        else f.holder) = some (i, c) := by
    intro c' hgrip
    split at hgrip
    · next hlock =>
      obtain ⟨hgripped, hne⟩ := letGo_eq_some.mp hgrip
      rw [if_pos hlock]
      exact letGo_eq_some.mpr ⟨h.holds hgripped, fun heq => hne (Prod.mk.inj heq).2⟩
    · next hlock =>
      rw [if_neg hlock]
      exact h.holds hgrip
  cases x with
  | starts direction name => exact h.holds hgrip
  | stops direction name => exact h.holds hgrip
  | call x =>
    cases x with
    | execute c' q r =>
      rw [Member.grip, Member.hold] at hgrip
      rw [Fleet.hold, Member.hold]
      split at hgrip
      · next hq =>
        split at hgrip
        · next hgranted =>
          obtain rfl := Option.some.inj hgrip
          refine if_pos ⟨hgranted.1, fun hlock => ?_⟩
          rw [Dialect.locksTransaction_eq (members i).locks] at hlock
          cases h.runs with
          | cons hnext _ => exact h.fits.isSome_of_lock hnext rfl hq hgranted.1 hlock
        · next hrefused =>
          rw [if_neg fun hgranted => hrefused ⟨hgranted.1, fun _ => rfl⟩]
          exact h.holds hgrip
      · next hq =>
        obtain ⟨hgripped, hne⟩ := letGo_eq_some.mp hgrip
        exact letGo_eq_some.mpr ⟨h.holds hgripped, fun heq => hne (Prod.mk.inj heq).2⟩
      · exact h.holds hgrip
    | commit c' r =>
      cases r with
      | ok _ => exact hends c' hgrip
      | error e => exact h.holds hgrip
    | rollback c' r => exact hends c' hgrip
    | _ => exact h.holds hgrip

/-- The run that acts goes on to its next standing. -/
theorem Stands.act (h : f.Stands members i (x :: rest) standing base)
    (hadmits : f.Admits members i x) :
    ∃ standing' base', (f.act members i x).Stands members i rest standing' base' ∧
      (listed base <+: names → listed base' <+: names) := by
  cases h.runs with
  | @cons _ standing' _ _ _ hnext hruns =>
    obtain ⟨base', hfits, hlisted⟩ := h.fits.next (members i).sorted
      (Prod.mk_right_injective i) hnext hadmits.honest
    refine ⟨standing', base', ⟨?_, hruns, hfits, fun hgripped => ?_⟩, hlisted⟩
    · rw [made_act_self]
      exact h.shown.next hnext
    · exact h.hold ((grip_next hnext).trans hgripped)

/-- The other runs stand as they stood. -/
theorem Stands.act_of_ne {rest' : List Act} {standing' : Standing} {base' : Finset String}
    (hi : f.Stands members i (x :: rest') standing' base') (hadmits : f.Admits members i x)
    (h : f.Stands members j rest standing base) (hne : j ≠ i) :
    ∃ base', (f.act members i x).Stands members j rest standing base' := by
  have hpending : ∀ c, (f.act members i x).archive.pending (j, c) = f.archive.pending (j, c) :=
    fun c => Archive.pending_after fun c' heq => hne (Prod.mk.inj heq).1
  have hcommitted : standing.gripped? = none ∨
      (f.act members i x).archive.committed = f.archive.committed := by
    cases hgripped : standing.gripped? with
    | none => exact .inl rfl
    | some c =>
      -- the lock is with the other run, so the one that acts does not have it
      have hno : standing'.gripped? = none := by
        cases hgripped' : standing'.gripped? with
        | none => rfl
        | some c' =>
          have heq := (h.holds hgripped).symm.trans (hi.holds hgripped')
          exact absurd (Prod.mk.inj (Option.some.inj heq)).1 hne
      cases hi.runs with
      | cons hnext _ =>
        exact .inr (hi.fits.committed_after (members i).sorted (Prod.mk_right_injective i) hnext
          hadmits.honest hno)
  obtain ⟨base', hfits⟩ := h.fits.frame hcommitted (fun c _ => hpending c) fun c hc => by
    rw [Archive.written, hpending]
    exact h.fits.quiet c hc
  refine ⟨base', ?_, h.runs, hfits, fun hgripped => hold_of_ne hadmits (h.holds hgripped) hne⟩
  rw [made_act_of_ne hne]
  exact h.shown

theorem Sound.act (h : f.Sound members) (halive : f.dead i = false)
    (hpath : (members i).Path (f.made i ++ x :: rest)) (hadmits : f.Admits members i x) :
    (f.act members i x).Sound members := by
  obtain ⟨standing, base, hstands⟩ := h.stands halive hpath
  constructor
  · obtain ⟨standing', base', hstands', hlisted⟩ := hstands.act hadmits
    have hbase := (hstands.fits.listed_iff (members i).sorted).mp h.listed
    exact (hstands'.fits.listed_iff (members i).sorted).mpr (hlisted hbase)
  · intro j hj
    by_cases hne : j = i
    · subst hne
      exact ⟨rest, by rwa [made_act_self, List.append_assoc]⟩
    · rw [made_act_of_ne hne] at hj ⊢
      exact h.paths hj
  · intro j rest' hj hpath'
    by_cases hne : j = i
    · subst hne
      rw [made_act_self, List.append_assoc] at hpath'
      obtain ⟨standing, base, hstands⟩ := h.stands hj hpath'
      obtain ⟨standing', base', hstands', -⟩ := hstands.act hadmits
      exact ⟨standing', base', hstands'⟩
    · rw [made_act_of_ne hne] at hpath'
      obtain ⟨standing', base', hstands'⟩ := h.stands hj hpath'
      obtain ⟨base'', hframed⟩ := hstands.act_of_ne hadmits hstands' hne
      exact ⟨standing', base'', hframed⟩

theorem Sound.die (h : f.Sound members) (i : ι) : (f.die i).Sound members where
  listed := h.listed
  paths := h.paths
  stands hj hpath := by
    obtain ⟨standing, base, hstands⟩ := h.stands (ne_of_die hj).2 hpath
    exact ⟨standing, base, hstands.shown, hstands.runs, hstands.fits, hstands.holds⟩

/-- A session that ends was not that of a run that goes on. -/
theorem Sound.hangUp {c : Connection} (h : f.Sound members)
    (hunused : f.dead i = true ∨ Member.lent c (f.made i) = false) :
    (f.hangUp i c).Sound members where
  listed := h.listed
  paths := h.paths
  stands {j rest} hj hpath := by
    obtain ⟨standing, base, hstands⟩ := h.stands hj hpath
    have hne : ∀ {c'}, standing.connection? = some c' → (j, c') ≠ (i, c) := by
      rintro c' hc' ⟨⟩
      obtain hdead | hlent := hunused
      · cases hj.symm.trans hdead
      · cases (hstands.shown.lent hc').symm.trans hlent
    obtain ⟨base', hfits⟩ := hstands.fits.frame (b := (f.hangUp i c).archive) (.inr rfl)
      (fun c' hc' => Archive.pending_set_of_ne (hne hc')) fun c' hc' => by
        by_cases heq : (j, c') = (i, c)
        · rw [heq]
          exact Archive.written_set_self
        · exact (Archive.written_set_of_ne heq).trans (hstands.fits.quiet c' hc')
    refine ⟨standing, base', hstands.shown, hstands.runs, hfits, fun hgripped => ?_⟩
    rw [Fleet.hangUp, hstands.holds hgripped]
    exact letGo_of_ne (hne (connection?_of_gripped? hgripped))

theorem Step.sound {f' : Fleet ι} (h : Step members f f') (hsound : f.Sound members) :
    f'.Sound members := by
  cases h with
  | act halive hpath hadmits => exact hsound.act halive hpath hadmits
  | die i => exact hsound.die i
  | hangUp hunused => exact hsound.hangUp hunused

omit [DecidableEq ι] in
/-- Before anything was done. -/
theorem sound_initial {books : Finset String} (hbooks : Migrate.listed books <+: names) :
    Sound members { archive := { committed := books } } where
  listed := hbooks
  paths := fun h => absurd rfl h
  stands _ hpath :=
    ⟨.away, books, shown_nil _, hpath.runs, ⟨rfl, fun _ _ => rfl⟩, nofun⟩

omit [DecidableEq ι] in
theorem admits_iff {i : ι} {x : Act} : f.Admits members i x ↔
    f.archive.Honest (members i).register (fun c => (i, c)) x ∧
      ∀ c q a, x = .call (.execute c q a) →
        (members i).register.kind? q.sql q.parameters = some .lock →
          ((members i).party.dialect.verdict a).isOk = true →
            f.holder = none ∨ f.holder = some (i, c) :=
  ⟨fun h => ⟨h.honest, fun _ _ _ => h.lock⟩, fun h => ⟨h.1, h.2 _ _ _⟩⟩

/-- Whether the database may answer acts of a run as it does. -/
def Allows (members : ι → Member names) (i : ι) : Fleet ι → List Act → Prop
  | _, [] => True
  | f, x :: acts => f.Admits members i x ∧ Allows members i (f.act members i x) acts

theorem steps_of_allows {i : ι} {acts rest : List Act} (h : Allows members i f acts)
    (halive : f.dead i = false) (hpath : (members i).Path (f.made i ++ (acts ++ rest))) :
    Relation.ReflTransGen (Step members) f (acts.foldl (fun f x => f.act members i x) f) := by
  induction acts generalizing f with
  | nil => exact .refl
  | cons x acts ih =>
    refine .head (.act halive hpath h.1) (ih h.2 halive ?_)
    rwa [made_act_self, List.append_assoc]

end Step

section Sound

omit [DecidableEq ι]

variable {i : ι} (h : f.Sound members) (halive : f.dead i = false)
include h halive

theorem Sound.exists_stands (hmade : f.made i ≠ []) :
    ∃ rest standing base, f.Stands members i rest standing base := by
  obtain ⟨rest, hpath⟩ := h.paths hmade
  exact ⟨rest, h.stands halive hpath⟩

/-- A run has the lock while it reads the history and while it runs migrations. -/
theorem Sound.busy (hbusy : f.Busy members i) :
    ∃ c, (members i).gripped? (f.made i) = some c := by
  obtain hrunning | ⟨c, q, a, rest, hpath, hq⟩ := hbusy
  · have hmade : f.made i ≠ [] := by
      intro hnil
      rw [hnil] at hrunning
      cases hrunning
    obtain ⟨rest, standing, base, hstands⟩ := h.exists_stands halive hmade
    rw [hstands.shown.running] at hrunning
    cases standing with
    | running c start goal k phase => exact ⟨c, hstands.shown.gripped⟩
    | _ => cases hrunning
  · obtain ⟨standing, base, hstands⟩ := h.stands halive hpath
    cases hstands.runs with
    | cons hnext _ => exact ⟨c, hstands.shown.gripped.trans (gripped?_of_read hnext hq)⟩

/-- A run that has the lock is the only one. -/
theorem Sound.holder {c : Connection} (hgripped : (members i).gripped? (f.made i) = some c) :
    f.holder = some (i, c) := by
  have hmade : f.made i ≠ [] := by
    intro hnil
    rw [hnil] at hgripped
    cases hgripped
  obtain ⟨rest, standing, base, hstands⟩ := h.exists_stands halive hmade
  exact hstands.holds (hstands.shown.gripped.symm.trans hgripped)

omit halive in
theorem Sound.gripped?_of_ne {c : Connection} (hholder : f.holder = some (i, c)) {j : ι}
    (hne : j ≠ i) (halive : f.dead j = false) : (members j).gripped? (f.made j) = none := by
  cases hgripped : (members j).gripped? (f.made j) with
  | none => rfl
  | some c' =>
    have heq := (h.holder halive hgripped).symm.trans hholder
    exact absurd (Prod.mk.inj (Option.some.inj heq)).1 hne

/-- What is executed is not booked, and what is reverted is. -/
theorem Sound.running {direction : Direction} {name : String}
    (hrunning : Member.running? (f.made i) = some (direction, name)) :
    name ∈ f.archive.committed ↔ direction = .down := by
  have hmade : f.made i ≠ [] := by
    intro hnil
    rw [hnil] at hrunning
    cases hrunning
  obtain ⟨rest, standing, base, hstands⟩ := h.exists_stands halive hmade
  rw [hstands.shown.running] at hrunning
  cases standing with
  | running c start goal k phase =>
    have hbatching := hstands.fits.holds.1
    have hmem : ∀ {j}, j = start ∨ j = k → (name ∈ first names j ↔ direction = .down) :=
      mem_first_of_next? (members i).sorted hbatching.between hrunning
    cases hd : (members i).party.dialect.undoesDefinitions with
    | true =>
      rw [(hbatching.undoes hd).1, hbatching.base_eq]
      exact hmem (.inl rfl)
    | false =>
      rw [hbatching.committed_eq hd]
      exact hmem (.inr rfl)
  | _ => cases hrunning

end Sound

/-- From a history that is a prefix of the names, whatever the runs do and in whatever order: a run
that reads the history or runs a migration has the lock, and no other run has it.  The books stay a
prefix of the names; what is executed is not booked, and what is reverted is. -/
theorem excludes {books : Finset String} (hbooks : listed books <+: names)
    (hsteps : Relation.ReflTransGen (Step members) { archive := { committed := books } } f) :
    (∀ i, f.dead i = false → f.Busy members i →
      ∃ c, (members i).gripped? (f.made i) = some c) ∧
    (∀ i c, f.dead i = false → (members i).gripped? (f.made i) = some c →
      f.holder = some (i, c) ∧
        ∀ j ≠ i, f.dead j = false → (members j).gripped? (f.made j) = none) ∧
    listed f.archive.committed <+: names ∧
    ∀ i direction name, f.dead i = false →
      Member.running? (f.made i) = some (direction, name) →
        (name ∈ f.archive.committed ↔ direction = .down) := by
  have hsound : f.Sound members := by
    induction hsteps with
    | refl => exact sound_initial hbooks
    | tail _ hstep ih => exact hstep.sound ih
  refine ⟨fun i halive => hsound.busy halive, fun i c halive hgripped => ?_, hsound.listed,
    fun i direction name halive => hsound.running halive⟩
  have hholder := hsound.holder halive hgripped
  exact ⟨hholder, fun j => hsound.gripped?_of_ne hholder⟩

/-- Two runs of one migrator; one of them runs the migration. -/
theorem excludes_mysql :
    ∃ (m : Member ["a"]) (f : Fleet Bool), listed ∅ <+: ["a"] ∧
      Relation.ReflTransGen (Step fun _ => m) { archive := { committed := ∅ } } f ∧
      Member.running? (f.made false) = some (.up, "a") ∧
      (∀ i, f.dead i = false → f.Busy (fun _ => m) i → ∃ c, m.gripped? (f.made i) = some c) ∧
      (∀ i c, f.dead i = false → m.gripped? (f.made i) = some c → f.holder = some (i, c) ∧
        ∀ j ≠ i, f.dead j = false → m.gripped? (f.made j) = none) ∧
      listed f.archive.committed <+: ["a"] ∧
      ∀ i direction name, f.dead i = false →
        Member.running? (f.made i) = some (direction, name) →
          (name ∈ f.archive.committed ↔ direction = .down) := by
  obtain ⟨q, hq, hnone⟩ := Register.exists_plain_eq_none
  generalize (⟨.raw ["create table t (id int)"] []⟩ : Node) = n at hq
  generalize Register.plain .mysql = reg at hnone
  obtain ⟨q₁, q₂, q₃, lock, q₄, q₅, unlock, acts, t, h₁, h₂, h₃, hlock, h₄, h₅, hunlock, hacts,
    hdoes⟩ := exists_path_mysql reg "a" hq ⟨0⟩
  let m : Member ["a"] := {
    party := { dialect := .mysql }
    register := reg
    registered := [("a", .statements [n] [])]
    target := .latest
    named := rfl
    keeps := fun x hx => by
      obtain rfl := List.mem_singleton.mp hx
      exact Migration.keeps_single hq hnone
    locks := rfl }
  have hbooks : listed ∅ <+: ["a"] := by simp [listed]
  have hpath : m.Path acts := ⟨_, _, _, hdoes⟩
  have hhistory : history (m.party.receive (.ok {})) = .ok [] := rfl
  -- up to the beginning of the migration
  have hallows : Allows (fun _ : Bool => m) false { archive := { committed := ∅ } }
      (acts.take 13) := by
    rw [hacts]
    simp [Allows, admits_iff, act, hold, Member.hold, Archive.Honest, Archive.after, Archive.view,
      Archive.written, Archive.set, m, h₁, h₂, h₃, hlock, h₄, hhistory]
  have hpath' : m.Path ([] ++ (acts.take 13 ++ acts.drop 13)) := by
    rwa [List.nil_append, List.take_append_drop]
  have hsteps := steps_of_allows hallows rfl hpath'
  refine ⟨m, _, hbooks, hsteps, ?_, excludes hbooks hsteps⟩
  rw [hacts]
  simp [act, Member.running?, Act.run]

end Fleet

end SqlTree
