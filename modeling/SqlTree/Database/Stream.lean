import SqlTree.Database.Handle

/-!
# Streams

Rows that arrive in chunks.  A task fetches the chunks and sends them through a channel with one
place; a reader takes rows from the other end until it has enough.  The task holds a connection from
the first chunk to the last, and gives it up as soon as it finds the reader gone.
-/

namespace SqlTree

/-- The task behind a stream. -/
inductive Fetch where
  /-- No connection, and an error still to be sent. -/
  | refused (e : Error)
  /-- Chunks still to be fetched. -/
  | fetching (chunks : List (Except Error QueryResult))
  /-- A chunk that waits for the channel, and those behind it. -/
  | sending (item : Except Error (List Row)) (chunks : List (Except Error QueryResult))
  /-- The connection was given back, or there never was one. -/
  | ended

/-- A stream between its task and its reader. -/
structure Stream where
  task : Fetch
  channel : Option (Except Error (List Row)) := none
  /-- Rows received but not taken; `none` once the reader is gone. -/
  reader : Option (List (Except Error Row)) := some []

namespace Stream

def isOk {α : Type} : Except Error α → Bool
  | .ok _ => true
  | .error _ => false

/-- The rows of an item, or its error in their place. -/
def rows : Except Error (List Row) → List (Except Error Row)
  | .ok rs => rs.map .ok
  | .error e => [.error e]

/-- A chunk after the plugins. -/
def received (plugins : List Plugin) (chunk : Except Error QueryResult) :
    Except Error (List Row) := do
  return (← Plugin.receiveAll plugins (← chunk)).rows

/-- The next step of the task; there is none while it waits or after it has ended. -/
def step? (plugins : List Plugin) (s : Stream) : Option Stream :=
  match s.task, s.reader.isSome, s.channel with
  | .refused e, true, none => some { s with task := .ended, channel := some (.error e) }
  | .refused _, false, _ => some { s with task := .ended }
  | .fetching [], _, _ => some { s with task := .ended }
  | .fetching (k :: ks), true, _ => some { s with task := .sending (received plugins k) ks }
  | .fetching _, false, _ => some { s with task := .ended }
  | .sending item ks, true, none =>
    some { s with task := if isOk item then .fetching ks else .ended, channel := some item }
  | .sending _ _, false, _ => some { s with task := .ended }
  | _, _, _ => none

/-- The reader takes the rows of the item in the channel. -/
def receive? (s : Stream) : Option Stream :=
  match s.reader, s.channel with
  | some [], some item => some { s with channel := none, reader := some (rows item) }
  | _, _ => none

/-- The reader takes a row. -/
def take? (s : Stream) : Option (Except Error Row × Stream) :=
  match s.reader with
  | some (r :: rs) => some (r, { s with reader := some rs })
  | _ => none

/-- The reader goes, with all it has not taken. -/
def close (s : Stream) : Stream := { s with channel := none, reader := none }

def taskSteps : Fetch → Nat
  | .refused _ => 1
  | .fetching ks => 2 * ks.length + 1
  | .sending _ ks => 2 * ks.length + 2
  | .ended => 0

def pendingRows (s : Stream) : Nat := (s.reader.getD []).length

def pendingItems (s : Stream) : Nat := if s.channel.isSome then 1 else 0

theorem taskSteps_lt_of_step? {plugins : List Plugin} {s t : Stream}
    (h : s.step? plugins = some t) : taskSteps t.task < taskSteps s.task := by
  obtain ⟨task, channel, reader⟩ := s
  cases task with
  | refused e =>
    cases reader <;> cases channel <;> simp [step?] at h <;> subst h <;> simp [taskSteps]
  | fetching ks =>
    cases ks <;> cases reader <;> cases channel <;> simp [step?] at h <;> subst h <;>
      simp [taskSteps] <;> omega
  | sending item ks =>
    cases reader <;> cases channel <;> simp [step?] at h <;> subst h <;> cases item <;>
      simp [taskSteps, isOk]
  | ended => cases reader <;> cases channel <;> simp [step?] at h

theorem take?_eq_some {s t : Stream} {r : Except Error Row} (h : s.take? = some (r, t)) :
    t.task = s.task ∧ t.channel = s.channel ∧ pendingRows t < pendingRows s := by
  obtain ⟨task, channel, reader⟩ := s
  cases reader with
  | none => simp [take?] at h
  | some rs =>
    cases rs with
    | nil => simp [take?] at h
    | cons x xs =>
      simp only [take?, Option.some.injEq, Prod.mk.injEq] at h
      obtain ⟨-, rfl⟩ := h
      simp [pendingRows]

theorem receive?_eq_some {s t : Stream} (h : s.receive? = some t) :
    t.task = s.task ∧ pendingItems t < pendingItems s := by
  obtain ⟨task, channel, reader⟩ := s
  match reader, channel with
  | some [], some item =>
    simp only [receive?, Option.some.injEq] at h
    subst h
    simp [pendingItems]
  | none, _ => simp [receive?] at h
  | some (_ :: _), _ => simp [receive?] at h
  | some [], none => simp [receive?] at h

/-- The rows a reader takes that reads on until the stream ends or it has enough. -/
def read (plugins : List Plugin) (limit : Option Nat) (s : Stream) : List (Except Error Row) :=
  if limit = some 0 then []
  else
    match _taken : s.take? with
    | some (r, t) => r :: read plugins (limit.map Nat.pred) t
    | none =>
      match _received : s.receive? with
      | some t => read plugins limit t
      | none =>
        match _stepped : s.step? plugins with
        | some t => read plugins limit t
        | none => []
termination_by (taskSteps s.task, pendingItems s, pendingRows s)
decreasing_by
  · obtain ⟨h, h', h''⟩ := take?_eq_some _taken
    simp only [h, pendingItems, h']
    exact Prod.Lex.right _ (Prod.Lex.right _ h'')
  · obtain ⟨h, h'⟩ := receive?_eq_some _received
    rw [h]
    exact Prod.Lex.right _ (Prod.Lex.left _ _ h')
  · exact Prod.Lex.left _ _ (taskSteps_lt_of_step? _stepped)

end Stream

namespace Database

variable {m : Type → Type} [Monad m] (db : Database m)

/-- The chunks of a statement; the first one to arrive is logged. -/
def fetch (q : Compiled) (chunkSize : Nat) : Action m (List (Except Error QueryResult)) :=
  db.withConnection fun d c => do
    let chunks ← Action.tell (d.stream c q chunkSize)
    match chunks with
    | k :: _ => Action.tell (Log.record db.log q k)
    | [] => pure ()
    return chunks

/-- The first rows of a statement, or all of them. -/
def stream (n : Node) (chunkSize : Nat) (limit : Option Nat) :
    Action m (List (Except Error Row)) := do
  let q ← Action.ofExcept (db.compile n)
  let task ← match ← (db.fetch q chunkSize).attempt with
    | .ok chunks => pure (Fetch.fetching chunks)
    | .error e => pure (Fetch.refused e)
  return Stream.read db.plugins limit { task }

end Database

end SqlTree
