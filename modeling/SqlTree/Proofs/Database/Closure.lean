import SqlTree.Proofs.Database.Handles

/-!
# Transactions around a body

A transaction on the pool gets one connection, on which it begins, runs its body, settles what the
body came to and gives the connection back; it ends early, with nothing to undo, if it gets no
connection or cannot begin (`Database.transaction_ends`).
-/

namespace SqlTree

/-- A body of statements, each chosen by what those before it came to. -/
inductive Body (α : Type) where
  | done (r : Except Error α)
  | run (n : Node) (next : Except Error QueryResult → Body α)
  | stream (n : Node) (chunkSize : Nat) (limit : Option Nat)
    (next : Except Error (List (Except Error Row)) → Body α)

namespace Client

variable (u : Client)

def compile (n : Node) : Except Error Compiled := Plugin.compileWith u.plugins u.dialect n

/-- An answer after the plugins. -/
def receive (a : Except Error QueryResult) : Except Error QueryResult :=
  a.bind (Plugin.receiveAll u.plugins)

end Client

namespace Body

variable {α : Type}

/-- The body run through a handle. -/
def perform {m : Type → Type} [Monad m] (b : Body α) (db : Database m) : Action m α :=
  match b with
  | .done r => Action.ofExcept r
  | .run n next => do
    let r ← (db.run n).attempt
    (next r).perform db
  | .stream n chunkSize limit next => do
    let r ← (db.stream n chunkSize limit).attempt
    (next r).perform db

/-- The calls of a body on a connection, with what the body comes to.  Only statements that compile
are sent. -/
inductive Plays (u : Client) (c : Connection) : Body α → List Call → Except Error α → Prop
  | done (r : Except Error α) : Plays u c (.done r) [] r
  | unsent {n : Node} {next : Except Error QueryResult → Body α} {e : Error} {calls : List Call}
    {r : Except Error α} (hn : u.compile n = .error e) (h : Plays u c (next (.error e)) calls r) :
    Plays u c (.run n next) calls r
  | sent {n : Node} {next : Except Error QueryResult → Body α} {q : Compiled} {calls : List Call}
    {r : Except Error α} (hn : u.compile n = .ok q) (a : Except Error QueryResult)
    (h : Plays u c (next (u.receive a)) calls r) :
    Plays u c (.run n next) (.execute c q a :: calls) r
  | unstreamed {n : Node} {chunkSize : Nat} {limit : Option Nat}
    {next : Except Error (List (Except Error Row)) → Body α} {e : Error} {calls : List Call}
    {r : Except Error α} (hn : u.compile n = .error e) (h : Plays u c (next (.error e)) calls r) :
    Plays u c (.stream n chunkSize limit next) calls r
  | streamed {n : Node} {chunkSize : Nat} {limit : Option Nat}
    {next : Except Error (List (Except Error Row)) → Body α} {q : Compiled} {calls : List Call}
    {r : Except Error α} (hn : u.compile n = .ok q) (chunks : List (Except Error QueryResult))
    (h : Plays u c
      (next (.ok (SqlTree.Stream.read u.plugins limit { task := .fetching chunks }))) calls r) :
    Plays u c (.stream n chunkSize limit next) (.stream c q chunkSize chunks :: calls) r

end Body

namespace Database

variable (u : Client) {w : World} {i : Nat} {c : Connection} {n : Node} {q : Compiled}
  {scope : Scope}

theorem on_compile {r : Except Error Compiled} (hn : u.compile n = r) (w : World) :
    (Action.ofExcept ((u.handle scope).compile n)).on w = (r, w) := by
  rw [Action.on_ofExcept]
  exact congrArg (·, w) hn

theorem on_run_unsent {e : Error} (hn : u.compile n = .error e) (w : World) :
    ((u.handle scope).run n).on w = (.error e, w) := by
  rw [run, runInto, Action.on_bind_error (on_compile u hn w)]

theorem on_stream_unsent {e : Error} (hn : u.compile n = .error e) (chunkSize : Nat)
    (limit : Option Nat) (w : World) :
    ((u.handle scope).stream n chunkSize limit).on w = (.error e, w) := by
  rw [stream, Action.on_bind_error (on_compile u hn w)]

/-- What a statement leaves behind is what sending it does. -/
theorem on_run_world (hn : u.compile n = .ok q) (w : World) :
    (((u.handle scope).run n).on w).2 = (((u.handle scope).withConnection fun d c =>
      Action.call ((u.handle scope).executor d c q)).on w).2 := by
  rw [run, runInto, Action.on_bind_ok (on_compile u hn w), sendInto, Action.on_bind]
  generalize (((u.handle scope).withConnection _).on w) = y
  obtain ⟨r, v⟩ := y
  cases r with
  | error e => rfl
  | ok r =>
    show ((Action.ofExcept _).on v).2 = v
    rw [Action.on_ofExcept]

theorem on_stream_world (hn : u.compile n = .ok q) (chunkSize : Nat) (limit : Option Nat)
    (w : World) :
    (((u.handle scope).stream n chunkSize limit).on w).2 =
      (((u.handle scope).fetch q chunkSize).on w).2 := by
  rw [stream, Action.on_bind_ok (on_compile u hn w), Action.on_bind_ok (Action.on_attempt _ w)]
  cases (((u.handle scope).fetch q chunkSize).on w).1 <;> rfl

section Bound

variable (hs : (u.handle scope).binding? = some i) (h : w.holds? i = some c)
  (hn : u.compile n = .ok q)
include hs h hn

/-- A statement on a bound connection is one call. -/
theorem on_run :
    ((u.handle scope).run n).on w = (u.receive (u.replies.execute w.calls c q),
      w.say [.execute c q (u.replies.execute w.calls c q)]) := by
  have hsend : ((u.handle scope).withConnection fun d c =>
      Action.call ((u.handle scope).executor d c q)).on w =
        (u.replies.execute w.calls c q, w.say [.execute c q (u.replies.execute w.calls c q)]) := by
    rw [on_withConnection u _ hs h, executor_eq]
    exact Action.on_call_answer _ _ w
  rw [run, runInto, Action.on_bind_ok (on_compile u hn w), sendInto, Action.on_bind, hsend]
  cases u.replies.execute w.calls c q with
  | error e => rfl
  | ok r => exact Action.on_ofExcept _ _

theorem on_stream (chunkSize : Nat) (limit : Option Nat) :
    ((u.handle scope).stream n chunkSize limit).on w =
      (.ok (SqlTree.Stream.read u.plugins limit
        { task := .fetching (u.replies.stream w.calls c q chunkSize) }),
        w.say [.stream c q chunkSize (u.replies.stream w.calls c q chunkSize)]) := by
  have hfetch : ((u.handle scope).fetch q chunkSize).on w =
      (.ok (u.replies.stream w.calls c q chunkSize),
        w.say [.stream c q chunkSize (u.replies.stream w.calls c q chunkSize)]) := by
    rw [fetch, on_withConnection u _ hs h]
    exact on_fetched u c q chunkSize w
  rw [stream, Action.on_bind_ok (on_compile u hn w), Action.on_bind_ok (Action.on_attempt _ w),
    hfetch]
  rfl

end Bound

end Database

namespace Body

variable {α : Type}

/-- On a bound connection a body makes its calls and nothing else. -/
theorem plays (u : Client) {i : Nat} {c : Connection} {scope : Scope}
    (hs : (u.handle scope).binding? = some i) (b : Body α) {w : World}
    (h : w.holds? i = some c) :
    ∃ calls r, Plays u c b calls r ∧ (b.perform (u.handle scope)).on w = (r, w.say calls) := by
  induction b generalizing w with
  | done r => exact ⟨[], r, .done r, by rw [perform, Action.on_ofExcept, World.say_nil]⟩
  | run n next ih =>
    rw [perform, Action.on_bind_ok (Action.on_attempt _ w)]
    cases hn : u.compile n with
    | error e =>
      obtain ⟨calls, r, hplays, hon⟩ := ih (.error e) h
      rw [Database.on_run_unsent u hn]
      exact ⟨calls, r, .unsent hn hplays, hon⟩
    | ok q =>
      rw [Database.on_run u hs h hn]
      obtain ⟨calls, r, hplays, hon⟩ := ih (u.receive (u.replies.execute w.calls c q))
        (w := w.say [.execute c q (u.replies.execute w.calls c q)]) h
      exact ⟨_, r, .sent hn _ hplays, hon.trans (by rw [World.say_say]; rfl)⟩
  | stream n chunkSize limit next ih =>
    rw [perform, Action.on_bind_ok (Action.on_attempt _ w)]
    cases hn : u.compile n with
    | error e =>
      obtain ⟨calls, r, hplays, hon⟩ := ih (.error e) h
      rw [Database.on_stream_unsent u hn]
      exact ⟨calls, r, .unstreamed hn hplays, hon⟩
    | ok q =>
      rw [Database.on_stream u hs h hn]
      obtain ⟨calls, r, hplays, hon⟩ := ih _
        (w := w.say [.stream c q chunkSize (u.replies.stream w.calls c q chunkSize)]) h
      exact ⟨_, r, .streamed hn _ hplays, hon.trans (by rw [World.say_say]; rfl)⟩

end Body

/-- The calls of a transaction around a body, with what it comes to.  It has no connection, cannot
begin, or settles what the body came to; a connection that it got is given back once, at the end. -/
inductive Ends (u : Client) (s : TransactionSettings) {α : Type} (b : Body α)
    (initialized : Bool) : List Call → Except Error α → Prop
  | unopened {opening : List Call} {e : Error} (h : Opens initialized opening (.error e)) :
    Ends u s b initialized opening (.error e)
  | unbegun {opening : List Call} {c : Connection} (h : Opens initialized opening (.ok c))
    (e : Error) :
    Ends u s b initialized (opening ++ [.begin c s (.error e), .release c]) (.error e)
  | settled {opening calls ending : List Call} {c : Connection} {outcome r : Except Error α}
    (h : Opens initialized opening (.ok c)) (hbody : b.Plays u c calls outcome)
    (hending : Settles c outcome ending r) :
    Ends u s b initialized
      (opening ++ .begin c s (.ok ()) :: calls ++ ending ++ [.release c]) r

namespace Database

/-- Whatever the driver answers and the body does, a transaction on the pool ends in one of these
ways. -/
theorem transaction_ends (u : Client) (s : TransactionSettings) {α : Type} (b : Body α)
    (w : World) :
    ∃ calls r, Ends u s b w.shared.initialized calls r ∧
      (((u.handle .pool).transaction s b.perform).on w).1 = r ∧
      (((u.handle .pool).transaction s b.perform).on w).2.calls = w.calls ++ calls := by
  obtain ⟨opening, a, initialized, hopens, hacquire, -⟩ := on_acquire u w
  cases a with
  | error e =>
    rw [on_transaction_error u .pool s _ (on_begin_pool_error u s hacquire)]
    exact ⟨opening, _, .unopened hopens, rfl, rfl⟩
  | ok c =>
    let opened := (w.say opening).setInitialized initialized
    have hbegin := on_begin_pool u s hacquire
    cases hreply : u.replies.begin opened.calls c s with
    | error e =>
      rw [hreply] at hbegin
      rw [on_transaction_error u .pool s _ hbegin]
      exact ⟨_, _, .unbegun hopens e, rfl, List.append_assoc ..⟩
    | ok a =>
      rw [hreply] at hbegin
      let p : Pinned := ⟨opened.shared.bindings.length, true⟩
      let begun := (opened.say [.begin c s (.ok ())]).bind ⟨some c, true⟩
      have hbinding : begun.binding? p.binding = some ⟨some c, true⟩ := World.binding?_bind_length
      have hscope : (u.handle (.transaction p.binding)).binding? = some p.binding := rfl
      obtain ⟨calls, outcome, hplays, hbody⟩ :=
        b.plays u hscope (World.holds?_of_binding? hbinding)
      obtain ⟨ending, r, hsettles, hfinish⟩ :=
        on_finish u (p := p) (w := begun.say calls) .pool hbinding rfl outcome
      have hon : ((u.handle .pool).transaction s b.perform).on w =
          (r, ((begun.say calls).say ending).left p c) := by
        rw [on_transaction u .pool s _ hbegin]
        show ((u.handle .pool).finish u.driver p
          ((b.perform (u.handle (.transaction p.binding))).on begun).1).on _ = _
        rw [hbody]
        exact hfinish
      refine ⟨_, r, .settled hopens hplays hsettles, ?_⟩
      rw [hon]
      refine ⟨rfl, ?_⟩
      simp [World.left, begun, p, opened, World.setInitialized]

end Database

end SqlTree
