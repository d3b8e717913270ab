import SqlTree.Proofs.Database.Handles

/-!
# Operations of handles

The parts of transactions, connection blocks and transactions ended by hand that take effect one
after another, whoever uses the handles (`Operation`).  A program on a database is a run of them
(`Program.exists_run`).
-/

namespace SqlTree

inductive Operation where
  | run (scope : Scope) (n : Node)
  | stream (scope : Scope) (n : Node) (chunkSize : Nat) (limit : Option Nat)
  /-- Begins a transaction around a body. -/
  | begin (scope : Scope) (s : TransactionSettings)
  /-- Ends a transaction around a body. -/
  | finish (p : Pinned) (outcome : Except Error Unit)
  /-- Begins a transaction that is ended by hand. -/
  | start (scope : Scope) (s : TransactionSettings)
  | commit (t : Controlled)
  | rollback (t : Controlled)
  | savepoint (t : Controlled) (name : String)
  | rollbackTo (t : Controlled) (name : String)
  | releaseSavepoint (t : Controlled) (name : String)
  | drop (t : Controlled)
  /-- Takes a connection for a body. -/
  | hold
  /-- Gives back the connection of a body. -/
  | letGo (i : Nat)
  /-- Gives back a connection whose handles are gone. -/
  | abandon (i : Nat)
  | destroy

namespace Operation

def Answer : Operation → Type
  | .run .. => QueryResult
  | .stream .. => List (Except Error Row)
  | .begin .. => Pinned
  | .start .. => Controlled × Database Taped
  | .hold => Nat
  | _ => Unit

variable (u : Client)

def action : (op : Operation) → Action Taped op.Answer
  | .run scope n => (u.handle scope).run n
  | .stream scope n chunkSize limit => (u.handle scope).stream n chunkSize limit
  | .begin scope s => (u.handle scope).begin u.driver s
  | .finish p outcome => (u.handle .pool).finish u.driver p outcome
  | .start scope s => (u.handle scope).startTransaction s
  | .commit t => t.commit (u.handle .pool)
  | .rollback t => t.rollback (u.handle .pool)
  | .savepoint t name => t.savepoint (u.handle .pool) name
  | .rollbackTo t name => t.rollbackTo (u.handle .pool) name
  | .releaseSavepoint t name => t.releaseSavepoint (u.handle .pool) name
  | .drop t => t.drop (u.handle .pool)
  | .hold => do Binding.new (← Database.acquire u.driver)
  | .letGo i => Binding.release u.driver i
  | .abandon i => (u.handle .pool).abandon u.driver i
  | .destroy => (u.handle .pool).destroy

end Operation

namespace World

/-- Nobody has used the database. -/
def new : World := ⟨{}, []⟩

variable (u : Client) (w : World)

def after (op : Operation) : World := ((op.action u).on w).2

def run (ops : List Operation) : World := ops.foldl (after u) w

theorem run_append (xs ys : List Operation) : w.run u (xs ++ ys) = (w.run u xs).run u ys :=
  List.foldl_append

theorem run_concat (ops : List Operation) (op : Operation) :
    w.run u (ops ++ [op]) = (w.run u ops).after u op :=
  w.run_append u ops [op]

end World

/-- A program on a database, each step chosen by what those before it came to. -/
inductive Program : Type → Type 1 where
  | done {α : Type} (r : Except Error α) : Program α
  | ask {α : Type} (op : Operation) (next : Except Error op.Answer → Program α) : Program α
  | transaction {α β : Type} (scope : Scope) (s : TransactionSettings) (body : Scope → Program β)
    (next : Except Error β → Program α) : Program α
  | connection {α β : Type} (scope : Scope) (body : Scope → Program β)
    (next : Except Error β → Program α) : Program α

namespace Program

def perform (u : Client) : {α : Type} → Program α → Action Taped α
  | _, .done r => Action.ofExcept r
  | _, .ask op next => do
    let r ← (op.action u).attempt
    (next r).perform u
  | _, .transaction scope s body next => do
    let r ← ((u.handle scope).transaction s fun db => (body db.scope).perform u).attempt
    (next r).perform u
  | _, .connection scope body next => do
    let r ← ((u.handle scope).connection fun db => (body db.scope).perform u).attempt
    (next r).perform u

end Program

namespace Database

variable (u : Client) {w : World} {α : Type}

/-- What a transaction leaves behind does not depend on the value of its body. -/
theorem on_finish_unit (scope : Scope) (p : Pinned) (outcome : Except Error α) (w : World) :
    (((u.handle scope).finish u.driver p outcome).on w).2 =
      w.after u (.finish p (outcome.map fun _ => ())) := by
  show _ = (((u.handle .pool).finish u.driver p (outcome.map fun _ => ())).on w).2
  cases hw : w.holds? p.binding with
  | none => rw [on_finish_none u scope hw, on_finish_none u .pool hw]
  | some c =>
    obtain ⟨inTransaction, hb⟩ := World.exists_of_holds? hw
    cases outcome with
    | error e =>
      show _ = (((u.handle .pool).finish u.driver p (.error e : Except Error Unit)).on w).2
      rw [on_finish_error u scope hb rfl, on_finish_error u .pool hb rfl]
    | ok a =>
      show _ = (((u.handle .pool).finish u.driver p (.ok ())).on w).2
      rw [on_finish_ok u scope hb rfl, on_finish_ok u .pool hb rfl]
      cases u.replies.commit w.calls c <;> rfl

theorem after_hold {opened : World} {c : Connection}
    (h : (acquire u.driver).on w = (.ok c, opened)) :
    w.after u .hold = opened.bind ⟨some c, false⟩ :=
  congrArg Prod.snd ((Action.on_bind_ok h).trans (Binding.on_new opened c))

theorem after_hold_error {opened : World} {e : Error}
    (h : (acquire u.driver).on w = (.error e, opened)) : w.after u .hold = opened :=
  congrArg Prod.snd (Action.on_bind_error h)

/-- A transaction is begun, runs its body and is finished. -/
theorem exists_run_transaction (scope : Scope) (s : TransactionSettings)
    {body : Database Taped → Action Taped α}
    (hbody : ∀ i v, ∃ ops, ((body (u.handle (.transaction i))).on v).2 = v.run u ops) (w : World) :
    ∃ ops, (((u.handle scope).transaction s body).on w).2 = w.run u ops := by
  rcases hbegin : ((u.handle scope).begin u.driver s).on w with ⟨r, begun⟩
  obtain rfl : w.after u (.begin scope s) = begun := congrArg Prod.snd hbegin
  cases r with
  | error e =>
    rw [on_transaction_error u scope s body hbegin]
    exact ⟨[.begin scope s], rfl⟩
  | ok p =>
    let begun := w.after u (.begin scope s)
    obtain ⟨ops, hops⟩ := hbody p.binding begun
    let outcome := ((body (u.handle (.transaction p.binding))).on begun).1
    refine ⟨.begin scope s :: ops ++ [.finish p (outcome.map fun _ => ())], ?_⟩
    rw [on_transaction u scope s body hbegin]
    refine (on_finish_unit u scope p _ _).trans ?_
    rw [World.run_concat, hops]
    rfl

/-- A body on a bound handle runs as it is; otherwise a connection is taken for it and given
back. -/
theorem exists_run_connection (scope : Scope) {body : Database Taped → Action Taped α}
    (hbody : ∀ scope v, ∃ ops, ((body (u.handle scope)).on v).2 = v.run u ops) (w : World) :
    ∃ ops, (((u.handle scope).connection body).on w).2 = w.run u ops := by
  cases scope with
  | connection i => exact hbody (.connection i) w
  | transaction i => exact hbody (.transaction i) w
  | pool =>
    have hsome : ¬(u.handle .pool).binding?.isSome = true := nofun
    rw [connection, if_neg hsome, Action.on_bind_ok (on_requireDriver u w _)]
    rcases hacquire : (acquire u.driver).on w with ⟨r, opened⟩
    cases r with
    | error e =>
      refine ⟨[.hold], (congrArg Prod.snd (Action.on_bind_error hacquire)).trans ?_⟩
      exact (after_hold_error u hacquire).symm
    | ok c =>
      let i := opened.shared.bindings.length
      obtain ⟨ops, hops⟩ := hbody (.connection i) (opened.bind ⟨some c, false⟩)
      refine ⟨.hold :: ops ++ [.letGo i], ?_⟩
      rw [Action.on_bind_ok hacquire, Action.on_bind_ok (Binding.on_new opened c)]
      refine (congrArg Prod.snd (Action.on_bind_ok (Action.on_attempt _ _))).trans ?_
      refine (congrArg Prod.snd (Action.on_bind_ok (Binding.on_release u _ i))).trans ?_
      rw [Action.on_ofExcept, World.run_concat]
      show _ = ((Binding.release u.driver i).on _).2
      rw [Binding.on_release, show w.run u (.hold :: ops) = (w.after u .hold).run u ops from rfl,
        after_hold u hacquire, ← hops]
      rfl

end Database

namespace Program

variable (u : Client)

/-- Whatever a program does is a run of operations. -/
theorem exists_run {α : Type} (p : Program α) (w : World) :
    ∃ ops, ((p.perform u).on w).2 = w.run u ops := by
  -- what comes next runs where the operations before it have led
  have hnext : ∀ {β γ : Type} {x : Action Taped β} {f : Except Error β → Action Taped γ}
      {v : World}, (∃ ops, (x.on v).2 = v.run u ops) →
      (∀ r v, ∃ ops, ((f r).on v).2 = v.run u ops) →
      ∃ ops, ((x.attempt >>= f).on v).2 = v.run u ops := by
    rintro β γ x f v ⟨xs, hxs⟩ hf
    obtain ⟨ys, hys⟩ := hf (x.on v).1 (x.on v).2
    refine ⟨xs ++ ys, ?_⟩
    rw [Action.on_bind_ok (Action.on_attempt x v), hys, hxs, World.run_append]
  induction p generalizing w with
  | done r => exact ⟨[], by rw [perform, Action.on_ofExcept]; rfl⟩
  | ask op next ih => exact hnext ⟨[op], rfl⟩ ih
  | transaction scope s body next hbody ih =>
    exact hnext (Database.exists_run_transaction u scope s (fun i v => hbody _ v) w) ih
  | connection scope body next hbody ih =>
    exact hnext (Database.exists_run_connection u scope (fun scope v => hbody _ v) w) ih

end Program

end SqlTree
