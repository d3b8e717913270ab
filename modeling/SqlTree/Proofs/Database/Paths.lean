import SqlTree.Migrate.Plan
import SqlTree.Proofs.Database.Handles
import Mathlib.Logic.Function.Defs

/-!
# Paths

What an action can do on a database whose driver may answer anything: all its possible acts, with
the answers it gets, and what each of these paths comes to (`Action.Does`).
-/

namespace SqlTree

/-- A call of the driver with its answer, or the beginning or the end of a migration. -/
inductive Act where
  | call (x : Call)
  | starts (direction : Migrate.Direction) (name : String)
  | stops (direction : Migrate.Direction) (name : String)

/-- What a program can do: the acts of a path, and the value at its end. -/
def Paths (α : Type) : Type := List Act → α → Prop

namespace Paths

instance : Monad Paths where
  pure a := fun acts b => acts = [] ∧ b = a
  bind p f := fun acts b => ∃ before a after, acts = before ++ after ∧ p before a ∧ f a after b

/-- A call of the driver, whatever it answers. -/
def answer {α : Type} (call : α → Call) : Paths α := fun acts a => acts = [.call (call a)]

/-- An act that is not a call. -/
def note (x : Act) : Paths Unit := fun acts _ => acts = [x]

/-- The driver of a database that may answer anything. -/
def driver (dialect : Dialect) : Driver Paths where
  dialect := dialect
  init := answer .init
  acquire := answer .acquire
  release c := answer fun _ => .release c
  execute c q := answer (.execute c q)
  stream c q n := answer (.stream c q n)
  begin c _ s := answer (.begin c s)
  commit c _ := answer (.commit c)
  rollback c _ := answer (.rollback c)
  savepoint c _ name := answer (.savepoint c name)
  rollbackTo c _ name := answer (.rollbackTo c name)
  releaseSavepoint c _ name := answer (.releaseSavepoint c name)
  destroy := answer .destroy

end Paths

/-- Who uses such a database: a dialect, log levels and plugins.  What is logged is no act. -/
structure Party where
  dialect : Dialect
  levels : Option (List LogLevel) := none
  plugins : List Plugin := []

namespace Party

variable (u : Party)

def driver : Driver Paths := Paths.driver u.dialect

def handle (scope : Scope) : Database Paths where
  dialect := u.dialect
  driver := some u.driver
  log := u.levels.map fun levels => ⟨levels, fun _ => pure ()⟩
  plugins := u.plugins
  scope := scope

def compile (n : Node) : Except Error Compiled := Plugin.compileWith u.plugins u.dialect n

/-- An answer after the plugins. -/
def receive (a : Except Error QueryResult) : Except Error QueryResult :=
  a.bind (Plugin.receiveAll u.plugins)

end Party

namespace Action

variable {α β : Type} {s t : Shared} {acts : List Act}

/-- An action can go from the shared state `s` to `t` with these acts and this result. -/
def Does (x : Action Paths α) (s : Shared) (acts : List Act) (r : Except Error α) (t : Shared) :
    Prop :=
  x.run.run s acts (r, t)

section

variable {r : Except Error α}

@[simp] theorem does_pure (a : α) :
    (pure a : Action Paths α).Does s acts r t ↔ acts = [] ∧ r = .ok a ∧ t = s := by
  show acts = [] ∧ (r, t) = (.ok a, s) ↔ _
  rw [Prod.mk.injEq]

@[simp] theorem does_throw (e : Error) :
    (throw e : Action Paths α).Does s acts r t ↔ acts = [] ∧ r = .error e ∧ t = s := by
  show acts = [] ∧ (r, t) = (.error e, s) ↔ _
  rw [Prod.mk.injEq]

@[simp] theorem does_ofExcept (r' : Except Error α) :
    (ofExcept r' : Action Paths α).Does s acts r t ↔ acts = [] ∧ r = r' ∧ t = s := by
  cases r' with
  | ok a => exact does_pure a
  | error e => exact does_throw e

@[simp] theorem does_attempt (x : Action Paths α) {r : Except Error (Except Error α)} :
    x.attempt.Does s acts r t ↔ ∃ a, r = .ok a ∧ x.Does s acts a t := by
  constructor
  · rintro ⟨before, ⟨a, s'⟩, after, rfl, hx, rfl, h⟩
    obtain ⟨rfl, rfl⟩ := Prod.mk.inj h
    rw [List.append_nil]
    exact ⟨a, rfl, hx⟩
  · rintro ⟨a, rfl, hx⟩
    exact ⟨acts, (a, t), [], (List.append_nil _).symm, hx, rfl, rfl⟩

@[simp] theorem does_call (p : Paths (Except Error α)) :
    (Action.call p).Does s acts r t ↔ p acts r ∧ t = s := by
  constructor
  · rintro ⟨before, a, after, rfl, hp, rfl, h⟩
    obtain ⟨rfl, rfl⟩ := Prod.mk.inj h
    rw [List.append_nil]
    exact ⟨hp, rfl⟩
  · rintro ⟨hp, rfl⟩
    exact ⟨acts, r, [], (List.append_nil _).symm, hp, rfl, rfl⟩

@[simp] theorem does_tell (p : Paths α) :
    (Action.tell p).Does s acts r t ↔ ∃ a, r = .ok a ∧ p acts a ∧ t = s := by
  constructor
  · rintro ⟨_, ⟨a, s'⟩, after, rfl, ⟨before, a', after', rfl, hp, rfl, h'⟩, rfl, h⟩
    obtain ⟨rfl, rfl⟩ := Prod.mk.inj h'
    obtain ⟨rfl, rfl⟩ := Prod.mk.inj h
    rw [List.append_nil, List.append_nil]
    exact ⟨a, rfl, hp, rfl⟩
  · rintro ⟨a, rfl, hp, rfl⟩
    exact ⟨acts, (a, t), [], (List.append_nil _).symm,
      ⟨acts, a, [], (List.append_nil _).symm, hp, rfl, rfl⟩, rfl, rfl⟩

end

@[simp] theorem does_get {r : Except Error Shared} :
    (get : Action Paths Shared).Does s acts r t ↔ acts = [] ∧ r = .ok s ∧ t = s := by
  constructor
  · rintro ⟨_, ⟨a, s'⟩, after, rfl, ⟨rfl, h'⟩, rfl, h⟩
    obtain ⟨rfl, rfl⟩ := Prod.mk.inj h'
    obtain ⟨rfl, rfl⟩ := Prod.mk.inj h
    exact ⟨rfl, rfl, rfl⟩
  · rintro ⟨rfl, rfl, rfl⟩
    exact ⟨[], (t, t), [], rfl, ⟨rfl, rfl⟩, rfl, rfl⟩

@[simp] theorem does_modify (f : Shared → Shared) {r : Except Error PUnit} :
    (modify f : Action Paths PUnit).Does s acts r t ↔ acts = [] ∧ r = .ok ⟨⟩ ∧ t = f s := by
  constructor
  · rintro ⟨_, ⟨a, s'⟩, after, rfl, ⟨rfl, h'⟩, rfl, h⟩
    obtain ⟨rfl, rfl⟩ := Prod.mk.inj h'
    obtain ⟨rfl, rfl⟩ := Prod.mk.inj h
    exact ⟨rfl, rfl, rfl⟩
  · rintro ⟨rfl, rfl, rfl⟩
    exact ⟨[], (⟨⟩, f s), [], rfl, ⟨rfl, rfl⟩, rfl, rfl⟩

/-- One action after another. -/
theorem does_bind {x : Action Paths α} {f : α → Action Paths β} {r : Except Error β} :
    (x >>= f).Does s acts r t ↔
      (∃ e, r = .error e ∧ x.Does s acts (.error e) t) ∨
        ∃ a v before after, acts = before ++ after ∧ x.Does s before (.ok a) v ∧
          (f a).Does v after r t := by
  constructor
  · rintro ⟨before, ⟨a, v⟩, after, rfl, hx, hf⟩
    cases a with
    | error e =>
      obtain ⟨rfl, h⟩ := hf
      obtain ⟨rfl, rfl⟩ := Prod.mk.inj h
      rw [List.append_nil]
      exact .inl ⟨e, rfl, hx⟩
    | ok a => exact .inr ⟨a, v, before, after, rfl, hx, hf⟩
  · rintro (⟨e, rfl, hx⟩ | ⟨a, v, before, after, rfl, hx, hf⟩)
    · exact ⟨acts, (.error e, t), [], (List.append_nil _).symm, hx, rfl, rfl⟩
    · exact ⟨before, (.ok a, v), after, rfl, hx, hf⟩

/-- An action that always succeeds, before another one. -/
theorem does_bind_attempt {x : Action Paths α} {f : Except Error α → Action Paths β}
    {r : Except Error β} :
    (x.attempt >>= f).Does s acts r t ↔ ∃ a v before after, acts = before ++ after ∧
      x.Does s before a v ∧ (f a).Does v after r t := by
  simp [does_bind]

theorem does_bind_tell {p : Paths α} {f : α → Action Paths β} {r : Except Error β} :
    (tell p >>= f).Does s acts r t ↔
      ∃ a before after, acts = before ++ after ∧ p before a ∧ (f a).Does s after r t := by
  rw [does_bind]
  constructor
  · rintro (⟨e, -, hp⟩ | ⟨a, v, before, after, rfl, hp, hf⟩)
    · obtain ⟨_, he, -⟩ := (does_tell p).mp hp
      cases he
    · obtain ⟨_, ha, hp, rfl⟩ := (does_tell p).mp hp
      cases ha
      exact ⟨a, before, after, rfl, hp, hf⟩
  · rintro ⟨a, before, after, rfl, hp, hf⟩
    exact .inr ⟨a, s, before, after, rfl, (does_tell p).mpr ⟨a, rfl, hp, rfl⟩, hf⟩

section Silent

/-- An action with a single path, on which there are no acts. -/
def Silent (x : Action Paths α) (s : Shared) (r : Except Error α) (t : Shared) : Prop :=
  ∀ acts r' t', x.Does s acts r' t' ↔ acts = [] ∧ r' = r ∧ t' = t

variable {x : Action Paths α} {f : α → Action Paths β} {v : Shared} {r : Except Error β}

theorem does_bind_ok {a : α} (h : x.Silent s (.ok a) v) :
    (x >>= f).Does s acts r t ↔ (f a).Does v acts r t := by
  rw [does_bind]
  constructor
  · rintro (⟨e, -, hx⟩ | ⟨b, w, before, after, rfl, hx, hf⟩)
    · cases ((h _ _ _).mp hx).2.1
    · obtain ⟨rfl, hb, rfl⟩ := (h _ _ _).mp hx
      cases hb
      exact hf
  · exact fun hf => .inr ⟨a, v, [], acts, rfl, (h _ _ _).mpr ⟨rfl, rfl, rfl⟩, hf⟩

theorem does_bind_error {e : Error} (h : x.Silent s (.error e) v) :
    (x >>= f).Does s acts r t ↔ acts = [] ∧ r = .error e ∧ t = v := by
  rw [does_bind]
  constructor
  · rintro (⟨e, rfl, hx⟩ | ⟨b, w, before, after, rfl, hx, hf⟩)
    · obtain ⟨rfl, he, rfl⟩ := (h _ _ _).mp hx
      cases he
      exact ⟨rfl, rfl, rfl⟩
    · cases ((h _ _ _).mp hx).2.1
  · rintro ⟨rfl, rfl, rfl⟩
    exact .inl ⟨e, rfl, (h _ _ _).mpr ⟨rfl, rfl, rfl⟩⟩

theorem Silent.bind {a : α} {y : Except Error β} {w : Shared} (h : x.Silent s (.ok a) v)
    (hf : (f a).Silent v y w) : (x >>= f).Silent s y w := fun acts r' t' =>
  (does_bind_ok h).trans (hf acts r' t')

theorem silent_pure (a : α) (s : Shared) : (pure a : Action Paths α).Silent s (.ok a) s :=
  fun _ _ _ => does_pure a

theorem silent_ofExcept (r : Except Error α) (s : Shared) :
    (ofExcept r : Action Paths α).Silent s r s := fun _ _ _ => does_ofExcept r

theorem silent_get (s : Shared) : (get : Action Paths Shared).Silent s (.ok s) s :=
  fun _ _ _ => does_get

theorem silent_modify (f : Shared → Shared) (s : Shared) :
    (modify f : Action Paths PUnit).Silent s (.ok ⟨⟩) (f s) := fun _ _ _ => does_modify f

theorem does_bind_ofExcept (a : Except Error α) :
    (ofExcept a >>= f).Does s acts r t ↔
      match a with
      | .ok b => (f b).Does s acts r t
      | .error e => acts = [] ∧ r = .error e ∧ t = s := by
  cases a with
  | ok b => exact does_bind_ok (silent_ofExcept _ s)
  | error e => exact does_bind_error (silent_ofExcept _ s)

end Silent

section Replays

/-- An action that can replay the first of these acts, and goes on with its result and the rest. -/
def Replays (x : Action Paths α) (s : Shared) (acts : List Act)
    (goOn : Except Error α → Shared → List Act → Prop) : Prop :=
  ∃ before r t after, acts = before ++ after ∧ x.Does s before r t ∧ goOn r t after

variable {goOn : Except Error α → Shared → List Act → Prop}

theorem Replays.does {x : Action Paths α} {r : Except Error α}
    (h : x.Replays s acts fun r' t' rest => r' = r ∧ t' = t ∧ rest = []) : x.Does s acts r t := by
  obtain ⟨before, _, _, _, rfl, hdoes, rfl, rfl, rfl⟩ := h
  rwa [List.append_nil]

theorem Does.replays {x : Action Paths α} (before : List Act) {after : List Act}
    {r : Except Error α} (h : x.Does s before r t) (hgo : goOn r t after) :
    x.Replays s (before ++ after) goOn :=
  ⟨before, r, t, after, rfl, h, hgo⟩

theorem Silent.replays {x : Action Paths α} {r : Except Error α} (h : x.Silent s r t) :
    x.Replays s acts goOn ↔ goOn r t acts := by
  constructor
  · rintro ⟨before, r', t', after, rfl, hdoes, hgo⟩
    obtain ⟨rfl, rfl, rfl⟩ := (h _ _ _).mp hdoes
    exact hgo
  · exact fun hgo => ⟨[], r, t, acts, rfl, (h _ _ _).mpr ⟨rfl, rfl, rfl⟩, hgo⟩

@[simp] theorem replays_pure (a : α) :
    (pure a : Action Paths α).Replays s acts goOn ↔ goOn (.ok a) s acts :=
  (silent_pure a s).replays

@[simp] theorem replays_ofExcept (r : Except Error α) :
    (ofExcept r : Action Paths α).Replays s acts goOn ↔ goOn r s acts :=
  (silent_ofExcept r s).replays

@[simp] theorem replays_get {goOn : Except Error Shared → Shared → List Act → Prop} :
    (get : Action Paths Shared).Replays s acts goOn ↔ goOn (.ok s) s acts :=
  (silent_get s).replays

@[simp] theorem replays_bind {x : Action Paths α} {f : α → Action Paths β}
    {goOn : Except Error β → Shared → List Act → Prop} :
    (x >>= f).Replays s acts goOn ↔ x.Replays s acts fun r t rest =>
      match r with
      | .ok a => (f a).Replays t rest goOn
      | .error e => goOn (.error e) t rest := by
  constructor
  · rintro ⟨_, r, t, rest, rfl, hdoes, hgo⟩
    obtain ⟨e, rfl, hx⟩ | ⟨a, v, before, after, rfl, hx, hf⟩ := does_bind.mp hdoes
    · exact ⟨_, _, t, rest, rfl, hx, hgo⟩
    · exact ⟨before, _, v, after ++ rest, List.append_assoc .., hx,
        after, r, t, rest, rfl, hf, hgo⟩
  · rintro ⟨before, r, v, _, rfl, hx, hgo⟩
    cases r with
    | error e => exact ⟨before, _, v, _, rfl, does_bind.mpr (.inl ⟨e, rfl, hx⟩), hgo⟩
    | ok a =>
      obtain ⟨after, r, t, rest, rfl, hf, hgo⟩ := hgo
      exact ⟨before ++ after, r, t, rest, (List.append_assoc ..).symm,
        does_bind.mpr (.inr ⟨a, v, before, after, rfl, hx, hf⟩), hgo⟩

@[simp] theorem replays_attempt {x : Action Paths α}
    {goOn : Except Error (Except Error α) → Shared → List Act → Prop} :
    x.attempt.Replays s acts goOn ↔ x.Replays s acts fun r => goOn (.ok r) := by
  simp only [Replays, does_attempt]
  constructor
  · rintro ⟨before, _, t, after, rfl, ⟨a, rfl, hx⟩, hgo⟩
    exact ⟨before, a, t, after, rfl, hx, hgo⟩
  · rintro ⟨before, a, t, after, rfl, hx, hgo⟩
    exact ⟨before, _, t, after, rfl, ⟨a, rfl, hx⟩, hgo⟩

/-- A call is replayed with the answer it got. -/
theorem replays_call {p : Paths (Except Error α)} {act : Except Error α → Act}
    (hact : Function.Injective act) (hp : ∀ before a, p before a ↔ before = [act a])
    (a : Except Error α) :
    (Action.call p).Replays s (act a :: acts) goOn ↔ goOn a s acts := by
  simp only [Replays, does_call, hp]
  constructor
  · rintro ⟨_, a', _, rest, heq, ⟨rfl, rfl⟩, hgo⟩
    obtain ⟨ha, rfl⟩ := List.cons.inj heq
    rwa [hact ha]
  · exact fun hgo => ⟨_, a, s, acts, rfl, ⟨rfl, rfl⟩, hgo⟩

theorem replays_tell {p : Paths α} (act : α → Act) (hact : Function.Injective act)
    (hp : ∀ before a, p before a ↔ before = [act a]) (a : α) :
    (Action.tell p).Replays s (act a :: acts) goOn ↔ goOn (.ok a) s acts := by
  simp only [Replays, does_tell, hp]
  constructor
  · rintro ⟨_, _, _, rest, heq, ⟨a', rfl, rfl, rfl⟩, hgo⟩
    obtain ⟨ha, rfl⟩ := List.cons.inj heq
    rwa [hact ha]
  · exact fun hgo => ⟨_, _, s, acts, rfl, ⟨a, rfl, rfl, rfl⟩, hgo⟩

end Replays

end Action

end SqlTree
