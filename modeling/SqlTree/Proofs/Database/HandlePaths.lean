import SqlTree.Proofs.Database.Paths

/-!
# Paths of handles

What handles can do on a database that may answer anything: get a connection, use one, begin a
transaction on the pool and end it, and run a body on one connection.
-/

namespace SqlTree

/-- The connection in a binding. -/
def Shared.holds? (s : Shared) (i : Nat) : Option Connection :=
  (s.bindings[i]?).bind Binding.connection

namespace Shared

variable {s : Shared} {i : Nat} {c : Connection}

/-- Puts a binding behind the others. -/
def bind (s : Shared) (b : Binding) : Shared := { s with bindings := s.bindings ++ [b] }

def change (s : Shared) (i : Nat) (f : Binding → Binding) : Shared :=
  { s with bindings := s.bindings.modify i f }

@[simp] theorem holds?_bind (s : Shared) (c : Connection) (inTransaction : Bool) :
    (s.bind ⟨some c, inTransaction⟩).holds? s.bindings.length = some c := by
  simp [holds?, bind]

/-- Marks on bindings do not change what they hold. -/
@[simp] theorem holds?_marked (s : Shared) (i : Nat) (inTransaction : Bool) :
    (s.change i fun b => { b with inTransaction }).holds? i = s.holds? i := by
  simp only [holds?, change, List.getElem?_modify, if_pos]
  cases s.bindings[i]? <;> rfl

end Shared

open Action (Silent does_bind_ok does_bind_error does_bind silent_get silent_modify silent_pure
  silent_ofExcept)

namespace Binding

variable {s t : Shared} {i : Nat} {c : Connection}

theorem silent_get? (i : Nat) (s : Shared) :
    (get? i : Action Paths (Option Binding)).Silent s (.ok s.bindings[i]?) s :=
  (silent_get s).bind (silent_pure _ s)

theorem silent_new (c : Connection) (s : Shared) :
    (new c : Action Paths Nat).Silent s (.ok s.bindings.length) (s.bind ⟨some c, false⟩) :=
  (silent_get s).bind ((silent_modify _ s).bind (silent_pure _ _))

theorem silent_update (i : Nat) (f : Binding → Binding) (s : Shared) :
    (update i f : Action Paths PUnit).Silent s (.ok ⟨⟩) (s.change i f) := silent_modify _ s

theorem silent_current (h : s.holds? i = some c) :
    (current i : Action Paths Connection).Silent s (.ok c) s := by
  refine (silent_get? i s).bind ?_
  rw [Shared.holds?] at h
  rw [h]
  exact silent_pure c s

/-- A binding is emptied, and the connection in it is given back. -/
theorem does_release (u : Party) (h : s.holds? i = some c) {acts : List Act}
    {r : Except Error Unit} :
    (release u.driver i).Does s acts r t ↔
      acts = [.call (.release c)] ∧ r = .ok () ∧ t = s.change i fun _ => ⟨none, false⟩ := by
  rw [release, does_bind_ok (silent_get? i s)]
  show Action.Does (update i _ >>= _) s acts r t ↔ _
  rw [does_bind_ok (silent_update i _ s)]
  rw [Shared.holds?] at h
  rw [h]
  simp only [Action.does_tell]
  constructor
  · rintro ⟨⟨⟩, rfl, rfl, rfl⟩
    exact ⟨rfl, rfl, rfl⟩
  · rintro ⟨rfl, rfl, rfl⟩
    exact ⟨(), rfl, rfl, rfl⟩

end Binding

namespace Database

variable (u : Party) {s t : Shared} {acts : List Act}

theorem silent_requireDriver (scope : Scope) (s : Shared) :
    (u.handle scope).requireDriver.Silent s (.ok u.driver) s := silent_pure _ s

theorem does_prepare {r : Except Error Unit} (h : (prepare u.driver).Does s acts r t) :
    s.initialized = true ∧ acts = [] ∧ r = .ok () ∧ t = s ∨
      s.initialized = false ∧ acts = [.call (.init r)] ∧
        ((∃ e, r = .error e ∧ t = s) ∨ r = .ok () ∧ t = { s with initialized := true }) := by
  rw [prepare, does_bind_ok (silent_get s)] at h
  cases hs : s.initialized with
  | true =>
    rw [hs] at h
    obtain ⟨rfl, rfl, rfl⟩ := (Action.does_pure ()).mp h
    exact .inl ⟨rfl, rfl, rfl, rfl⟩
  | false =>
    rw [hs] at h
    refine .inr ⟨rfl, ?_⟩
    obtain ⟨e, rfl, hinit⟩ | ⟨⟨⟩, v, before, after, rfl, hinit, hmark⟩ := does_bind.mp h
    · obtain ⟨rfl, rfl⟩ := (Action.does_call _).mp hinit
      exact ⟨rfl, .inl ⟨e, rfl, rfl⟩⟩
    · obtain ⟨rfl, rfl⟩ := (Action.does_call _).mp hinit
      obtain ⟨rfl, rfl, rfl⟩ := (Action.does_modify _).mp hmark
      exact ⟨rfl, .inr ⟨rfl, rfl⟩⟩

/-- The driver is initialized before the first connection. -/
theorem does_acquire {r : Except Error Connection} (h : (acquire u.driver).Does s acts r t) :
    ∃ calls initialized, Opens s.initialized calls r ∧ acts = calls.map .call ∧
      t = { s with initialized } := by
  obtain ⟨e, rfl, hp⟩ | ⟨⟨⟩, v, before, after, rfl, hp, ha⟩ := does_bind.mp h
  · obtain ⟨-, -, hr, -⟩ | ⟨hs, rfl, ⟨e', he, rfl⟩ | ⟨hr, -⟩⟩ := does_prepare u hp
    · cases hr
    · exact ⟨[.init (.error e)], false, by rw [hs]; exact .uninitialized e, rfl, by rw [← hs]⟩
    · cases hr
  · obtain ⟨rfl, rfl⟩ := (Action.does_call _).mp ha
    obtain ⟨hs, rfl, -, rfl⟩ | ⟨hs, rfl, ⟨e, hr, -⟩ | ⟨-, rfl⟩⟩ := does_prepare u hp
    · exact ⟨[.acquire r], true, by rw [hs]; exact .ready r, rfl, by rw [← hs]⟩
    · cases hr
    · exact ⟨[.init (.ok ()), .acquire r], true, by rw [hs]; exact .fresh r, rfl, rfl⟩

/-- What is logged is no act. -/
theorem record_handle (scope : Scope) (q : Compiled) (r : Except Error QueryResult) :
    Log.record (u.handle scope).log q r = (pure () : Paths Unit) := by
  rw [Party.handle]
  cases u.levels with
  | none => rfl
  | some levels =>
    show (if _ then _ else _) = _
    split <;> rfl

theorem executor_iff (scope : Scope) (c : Connection) (q : Compiled) (before : List Act)
    (a : Except Error QueryResult) :
    (u.handle scope).executor u.driver c q before a ↔ before = [.call (.execute c q a)] := by
  simp only [executor, record_handle]
  constructor
  · rintro ⟨_, b, _, rfl, rfl, _, _, _, rfl, ⟨rfl, -⟩, rfl, rfl⟩
    rfl
  · rintro rfl
    exact ⟨_, a, [], rfl, rfl, [], (), [], rfl, ⟨rfl, rfl⟩, rfl, rfl⟩

section Bound

variable {α : Type} {scope : Scope} {i : Nat} {c : Connection}
  {use : Driver Paths → Connection → Action Paths α} {r : Except Error α}

theorem does_withConnection (hs : (u.handle scope).binding? = some i) (h : s.holds? i = some c) :
    ((u.handle scope).withConnection use).Does s acts r t ↔ (use u.driver c).Does s acts r t := by
  rw [withConnection, does_bind_ok (silent_requireDriver u scope s), hs]
  exact does_bind_ok (Binding.silent_current h)

/-- A connection of the pool is given back whether its use fails or not. -/
theorem does_withConnection_pool (h : ((u.handle .pool).withConnection use).Does s acts r t) :
    ∃ calls initialized a, Opens s.initialized calls a ∧
      ((∃ e, a = .error e ∧ acts = calls.map .call ∧ r = .error e) ∨
        ∃ c used, a = .ok c ∧ acts = calls.map .call ++ (used ++ [.call (.release c)]) ∧
          (use u.driver c).Does { s with initialized } used r t) := by
  rw [withConnection, does_bind_ok (silent_requireDriver u .pool s)] at h
  obtain ⟨e, rfl, ha⟩ | ⟨c, v, before, after, rfl, ha, hrest⟩ := does_bind.mp h
  · obtain ⟨calls, initialized, hopens, rfl, -⟩ := does_acquire u ha
    exact ⟨calls, initialized, _, hopens, .inl ⟨e, rfl, rfl, rfl⟩⟩
  · obtain ⟨calls, initialized, hopens, rfl, rfl⟩ := does_acquire u ha
    obtain ⟨a, v, used, after, rfl, huse, hrest⟩ := Action.does_bind_attempt.mp hrest
    obtain ⟨_, before, after, rfl, rfl, hend⟩ := Action.does_bind_tell.mp hrest
    obtain ⟨rfl, rfl, rfl⟩ := (Action.does_ofExcept _).mp hend
    exact ⟨calls, initialized, _, hopens, .inr ⟨c, used, rfl, rfl, huse⟩⟩

end Bound

section Transaction

variable (settings : TransactionSettings) {i : Nat} {c : Connection}

/-- Marks the binding of a transaction that has begun. -/
theorem does_begun {r : Except Error Unit} (h : s.holds? i = some c) (scope : Scope) :
    Action.Does (do
        let c ← Binding.current i
        Action.call (u.driver.begin c ((u.handle scope).executor u.driver c) settings)
        Binding.update i fun binding => { binding with inTransaction := true }) s acts r t ↔
      acts = [.call (.begin c settings r)] ∧
        t = if r.isOk then s.change i fun b => { b with inTransaction := true } else s := by
  rw [does_bind_ok (Binding.silent_current h), does_bind]
  constructor
  · rintro (⟨e, rfl, hbegin⟩ | ⟨⟨⟩, v, before, after, rfl, hbegin, hmark⟩)
    · obtain ⟨rfl, rfl⟩ := (Action.does_call _).mp hbegin
      exact ⟨rfl, rfl⟩
    · obtain ⟨rfl, rfl⟩ := (Action.does_call _).mp hbegin
      obtain ⟨rfl, rfl, rfl⟩ := (Binding.silent_update i _ _ _ _ _).mp hmark
      exact ⟨rfl, rfl⟩
  · rintro ⟨rfl, rfl⟩
    cases r with
    | error e => exact .inl ⟨e, rfl, (Action.does_call _).mpr ⟨rfl, rfl⟩⟩
    | ok a =>
      exact .inr ⟨(), s, _, [], (List.append_nil _).symm, (Action.does_call _).mpr ⟨rfl, rfl⟩,
        (Binding.silent_update i _ _ _ _ _).mpr ⟨rfl, rfl, rfl⟩⟩

/-- A connection without an open transaction is given back as it is. -/
theorem does_abandon {scope : Scope} {r : Except Error Unit}
    (h : s.bindings[i]? = some ⟨some c, false⟩)
    (hdoes : ((u.handle scope).abandon u.driver i).Does s acts r t) :
    acts = [.call (.release c)] ∧ r = .ok () := by
  rw [abandon, does_bind_ok (Binding.silent_get? i s), h] at hdoes
  have hholds : s.holds? i = some c := by rw [Shared.holds?, h]; rfl
  obtain ⟨rfl, rfl, -⟩ := (Binding.does_release u hholds).mp hdoes
  exact ⟨rfl, rfl⟩

/-- Beginning a transaction on the pool: there is no connection, it is given back because the
transaction cannot begin, or it is in a new binding. -/
theorem does_begin_pool {r : Except Error Pinned}
    (h : ((u.handle .pool).begin u.driver settings).Does s acts r t) :
    ∃ calls a, Opens s.initialized calls a ∧
      ((∃ e, a = .error e ∧ acts = calls.map .call ∧ r = .error e) ∨
        ∃ c, a = .ok c ∧
          ((∃ e, acts = calls.map .call ++
              [.call (.begin c settings (.error e)), .call (.release c)] ∧ r = .error e) ∨
            ∃ i, acts = calls.map .call ++ [.call (.begin c settings (.ok ()))] ∧
              r = .ok ⟨i, true⟩ ∧ t.holds? i = some c)) := by
  obtain ⟨e, rfl, hpin⟩ | ⟨p, v, pinning, after, rfl, hpin, hrest⟩ := does_bind.mp h
  · obtain ⟨e', he, ha⟩ | ⟨c, v, before, after, rfl, ha, hnew⟩ := does_bind.mp hpin
    · obtain ⟨calls, initialized, hopens, rfl, -⟩ := does_acquire u ha
      exact ⟨calls, _, hopens, .inl ⟨e, by cases he; rfl, rfl, rfl⟩⟩
    · rw [does_bind_ok (Binding.silent_new c v)] at hnew
      cases ((Action.does_pure _).mp hnew).2.1
  · obtain ⟨e', he, -⟩ | ⟨c, v', before, after', rfl, ha, hnew⟩ := does_bind.mp hpin
    · cases he
    · obtain ⟨calls, initialized, hopens, rfl, -⟩ := does_acquire u ha
      rw [does_bind_ok (Binding.silent_new c v')] at hnew
      obtain ⟨rfl, hp, rfl⟩ := (Action.does_pure _).mp hnew
      cases hp
      have hholds : (v'.bind ⟨some c, false⟩).holds? v'.bindings.length = some c := by simp
      obtain ⟨begun, w, acts, after, rfl, hbegun, hend⟩ := Action.does_bind_attempt.mp hrest
      obtain ⟨rfl, rfl⟩ := (does_begun u settings hholds .pool).mp hbegun
      rw [List.append_nil]
      refine ⟨calls, _, hopens, .inr ⟨c, rfl, ?_⟩⟩
      cases begun with
      | ok a =>
        obtain ⟨rfl, rfl, rfl⟩ := (Action.does_pure _).mp hend
        refine .inr ⟨_, rfl, rfl, ?_⟩
        simp [Except.isOk, Except.toBool]
      | error e =>
        refine .inl ⟨e, ?_⟩
        have hbinding : (v'.bind ⟨some c, false⟩).bindings[v'.bindings.length]? =
            some ⟨some c, false⟩ := by simp [Shared.bind]
        obtain ⟨e', -, habandon⟩ | ⟨⟨⟩, w, given, after, rfl, habandon, hthrow⟩ := does_bind.mp hend
        · cases (does_abandon u hbinding habandon).2
        · obtain ⟨rfl, -⟩ := does_abandon u hbinding habandon
          obtain ⟨rfl, rfl, -⟩ := (Action.does_throw e).mp hthrow
          exact ⟨rfl, rfl⟩

variable {α : Type} {p : Pinned}

theorem does_rollbackAfter {scope : Scope} {e : Error} {r : Except Error Error}
    (h : ((u.handle scope).rollbackAfter u.driver c e).Does s acts r t) :
    ∃ back, acts = [.call (.rollback c back)] ∧ r = .ok (e.undone back) ∧ t = s := by
  obtain ⟨back, before, after, rfl, rfl, hend⟩ := Action.does_bind_tell.mp h
  refine ⟨back, ?_⟩
  cases back <;> obtain ⟨rfl, rfl, rfl⟩ := (Action.does_pure _).mp hend <;> exact ⟨rfl, rfl, rfl⟩

/-- A transaction that owns its connection gives it back. -/
theorem does_leave {r : Except Error Unit} (hp : p.owned = true) (h : s.holds? p.binding = some c)
    (hdoes : (leave u.driver p).Does s acts r t) : acts = [.call (.release c)] ∧ r = .ok () := by
  rw [leave, does_bind_ok (Binding.silent_update _ _ s), hp] at hdoes
  obtain ⟨rfl, rfl, -⟩ := (Binding.does_release u (by simpa using h)).mp hdoes
  exact ⟨rfl, rfl⟩

/-- It settles what its body came to, and gives the connection back. -/
theorem does_finish {scope : Scope} {outcome : Except Error α} {r : Except Error α}
    (hp : p.owned = true) (h : s.holds? p.binding = some c)
    (hdoes : ((u.handle scope).finish u.driver p outcome).Does s acts r t) :
    ∃ ending, Settles c outcome ending r ∧
      acts = ending.map .call ++ [.call (.release c)] := by
  -- what comes after the ending
  have hleave : ∀ {r' : Except Error α} {acts : List Act},
      Action.Does (do leave u.driver p; Action.ofExcept r') s acts r t →
        r = r' ∧ acts = [.call (.release c)] := fun h' => by
    obtain ⟨e, -, hl⟩ | ⟨⟨⟩, v, before, after, rfl, hl, hend⟩ := does_bind.mp h'
    · cases (does_leave u hp h hl).2
    · obtain ⟨rfl, -⟩ := does_leave u hp h hl
      obtain ⟨rfl, rfl, -⟩ := (Action.does_ofExcept _).mp hend
      exact ⟨rfl, rfl⟩
  have hundone : ∀ {e : Error} {acts : List Act},
      Action.Does (do
        let e' ← (u.handle scope).rollbackAfter u.driver c e
        let r' ← (pure (.error e') : Action Paths (Except Error α))
        leave u.driver p
        Action.ofExcept r') s acts r t →
      ∃ back, r = .error (e.undone back) ∧
        acts = [.call (.rollback c back), .call (.release c)] := fun h' => by
    obtain ⟨e', -, hr⟩ | ⟨e', v, before, after, rfl, hr, hend⟩ := does_bind.mp h'
    · obtain ⟨_, -, hr, -⟩ := does_rollbackAfter u hr
      cases hr
    · obtain ⟨back, rfl, he, rfl⟩ := does_rollbackAfter u hr
      cases he
      rw [does_bind_ok (silent_pure _ _)] at hend
      obtain ⟨rfl, rfl⟩ := hleave hend
      exact ⟨back, rfl, rfl⟩
  rw [finish, does_bind_ok (Binding.silent_current h)] at hdoes
  cases outcome with
  | error e =>
    obtain ⟨back, rfl, rfl⟩ := hundone hdoes
    exact ⟨_, .undone e back, rfl⟩
  | ok a =>
    obtain ⟨answer, before, after, rfl, rfl, hend⟩ := Action.does_bind_tell.mp hdoes
    cases answer with
    | ok _ =>
      rw [does_bind_ok (silent_pure _ _)] at hend
      obtain ⟨rfl, rfl⟩ := hleave hend
      exact ⟨_, .committed a, rfl⟩
    | error e =>
      obtain ⟨back, rfl, rfl⟩ := hundone hend
      exact ⟨_, .uncommitted a e back, rfl⟩

end Transaction

section Bodies

variable {α : Type} {settings : TransactionSettings} {fault? : α → Option Error}
  {body : Database Paths → Action Paths α}

/-- What a transaction is finished with. -/
def faultless (fault? : α → Option Error) : Except Error α → Except Error Unit
  | .error e => .error e
  | .ok a =>
    match fault? a with
    | some e => .error e
    | none => .ok ()

/-- The answer of a transaction, from what its body came to and how it ended. -/
def settled (performed : Except Error α) (ended : Except Error Unit) :
    Except Error (α × Option Error) :=
  match performed, ended with
  | .ok a, .ok _ => .ok (a, none)
  | .ok a, .error e => .ok (a, some e)
  | .error _, .error e => .error e
  | .error e, .ok _ => .error e

/-- A transaction on the pool around a body that keeps its connection. -/
theorem does_transactionUnless {r : Except Error (α × Option Error)}
    (hbody : ∀ {i c s acts r t}, s.holds? i = some c →
      (body (u.handle (.transaction i))).Does s acts r t → t.holds? i = some c)
    (h : ((u.handle .pool).transactionUnless fault? settings body).Does s acts r t) :
    ∃ calls a, Opens s.initialized calls a ∧
      ((∃ e, a = .error e ∧ acts = calls.map .call ∧ r = .error e) ∨
        ∃ c, a = .ok c ∧
          ((∃ e, acts = calls.map .call ++
              [.call (.begin c settings (.error e)), .call (.release c)] ∧ r = .error e) ∨
            ∃ i v performed w acts' ending ended, v.holds? i = some c ∧
              (body (u.handle (.transaction i))).Does v acts' performed w ∧
              Settles c (faultless fault? performed) ending ended ∧
              acts = calls.map .call ++ .call (.begin c settings (.ok ())) ::
                (acts' ++ (ending.map .call ++ [.call (.release c)])) ∧
              r = settled performed ended)) := by
  rw [transactionUnless, does_bind_ok (silent_requireDriver u .pool s)] at h
  obtain ⟨e, rfl, hbegin⟩ | ⟨p, v, before, after, rfl, hbegin, hrest⟩ := does_bind.mp h
  · obtain ⟨calls, a, hopens, ⟨e', ha, rfl, he⟩ | ⟨c, ha, ⟨e', rfl, he⟩ | ⟨i, -, he, -⟩⟩⟩ :=
      does_begin_pool u settings hbegin
    · cases he
      exact ⟨calls, a, hopens, .inl ⟨e, ha, rfl, rfl⟩⟩
    · cases he
      exact ⟨calls, a, hopens, .inr ⟨c, ha, .inl ⟨e, rfl, rfl⟩⟩⟩
    · cases he
  · obtain ⟨calls, a, hopens, ⟨e', -, -, he⟩ | ⟨c, ha, ⟨e', -, he⟩ | ⟨i, rfl, he, hholds⟩⟩⟩ :=
      does_begin_pool u settings hbegin
    · cases he
    · cases he
    · cases he
      refine ⟨calls, a, hopens, .inr ⟨c, ha, .inr ?_⟩⟩
      obtain ⟨performed, w, acts', after, rfl, hperformed, hend⟩ :=
        Action.does_bind_attempt.mp hrest
      have hkept : w.holds? i = some c := hbody hholds hperformed
      suffices ∃ ending ended, Settles c (faultless fault? performed) ending ended ∧
          after = ending.map .call ++ [.call (.release c)] ∧ r = settled performed ended by
        obtain ⟨ending, ended, hsettles, rfl, rfl⟩ := this
        exact ⟨i, v, performed, w, acts', ending, ended, hholds, hperformed, hsettles, by simp,
          rfl⟩
      cases performed with
      | error e =>
        obtain ⟨_, hsettles, rfl⟩ := does_finish u rfl hkept hend
        cases hsettles with
        | undone e back => exact ⟨_, _, .undone e back, rfl, rfl⟩
      | ok b =>
        obtain ⟨ended, w', acts'', after', rfl, hfinish, hend⟩ :=
          Action.does_bind_attempt.mp hend
        obtain ⟨ending, hsettles, rfl⟩ := does_finish u rfl hkept hfinish
        refine ⟨ending, ended, hsettles, ?_⟩
        cases ended <;> obtain ⟨rfl, rfl, -⟩ := (Action.does_pure _).mp hend <;>
          exact ⟨List.append_nil _, rfl⟩

/-- A body on one connection of the pool, which it keeps. -/
theorem does_connection {r : Except Error α}
    (hbody : ∀ {i c s acts r t}, s.holds? i = some c →
      (body (u.handle (.connection i))).Does s acts r t → t.holds? i = some c)
    (h : ((u.handle .pool).connection body).Does s acts r t) :
    ∃ calls a, Opens s.initialized calls a ∧
      ((∃ e, a = .error e ∧ acts = calls.map .call ∧ r = .error e) ∨
        ∃ c i v w acts', a = .ok c ∧ v.holds? i = some c ∧
          (body (u.handle (.connection i))).Does v acts' r w ∧
          acts = calls.map .call ++ (acts' ++ [.call (.release c)])) := by
  have hpool : ¬(u.handle .pool).binding?.isSome = true := nofun
  rw [connection, if_neg hpool, does_bind_ok (silent_requireDriver u .pool s)] at h
  obtain ⟨e, rfl, ha⟩ | ⟨c, v, before, after, rfl, ha, hrest⟩ := does_bind.mp h
  · obtain ⟨calls, initialized, hopens, rfl, -⟩ := does_acquire u ha
    exact ⟨calls, _, hopens, .inl ⟨e, rfl, rfl, rfl⟩⟩
  · obtain ⟨calls, initialized, hopens, rfl, -⟩ := does_acquire u ha
    rw [does_bind_ok (Binding.silent_new c v)] at hrest
    obtain ⟨outcome, w, acts', after, rfl, hperformed, hend⟩ := Action.does_bind_attempt.mp hrest
    have hholds : (v.bind ⟨some c, false⟩).holds? v.bindings.length = some c := by simp
    obtain ⟨e, -, hrelease⟩ | ⟨⟨⟩, w', given, after, rfl, hrelease, hreturn⟩ := does_bind.mp hend
    · cases ((Binding.does_release u (hbody hholds hperformed)).mp hrelease).2.1
    · obtain ⟨rfl, -, -⟩ := (Binding.does_release u (hbody hholds hperformed)).mp hrelease
      obtain ⟨rfl, rfl, -⟩ := (Action.does_ofExcept _).mp hreturn
      exact ⟨calls, _, hopens, .inr ⟨c, _, _, w, acts', rfl, hholds, hperformed, rfl⟩⟩

end Bodies

section Statement

variable {scope : Scope} {i : Nat} {c : Connection} {n : Node} {r : Except Error QueryResult}

theorem silent_compile {r : Except Error Compiled} (hn : u.compile n = r) (s : Shared) :
    (Action.ofExcept ((u.handle scope).compile n)).Silent s r s := by
  subst hn
  exact silent_ofExcept _ s

/-- A statement on a bound connection is one call, unless it cannot be compiled. -/
theorem does_run (hs : (u.handle scope).binding? = some i) (h : s.holds? i = some c)
    (hdoes : ((u.handle scope).run n).Does s acts r t) :
    t = s ∧ ((∃ e, u.compile n = .error e ∧ acts = [] ∧ r = .error e) ∨
      ∃ q a, u.compile n = .ok q ∧ acts = [.call (.execute c q a)] ∧ r = u.receive a) := by
  cases hn : u.compile n with
  | error e =>
    rw [run, runInto, does_bind_error (silent_compile u hn s)] at hdoes
    obtain ⟨rfl, rfl, rfl⟩ := hdoes
    exact ⟨rfl, .inl ⟨e, rfl, rfl, rfl⟩⟩
  | ok q =>
    rw [run, runInto, does_bind_ok (silent_compile u hn s)] at hdoes
    obtain ⟨e, rfl, hsend⟩ | ⟨a, v, before, after, rfl, hsend, hreceive⟩ := does_bind.mp hdoes
    · obtain ⟨hexecute, rfl⟩ := (Action.does_call _).mp ((does_withConnection u hs h).mp hsend)
      exact ⟨rfl, .inr ⟨q, _, rfl, (executor_iff u scope c q _ _).mp hexecute, rfl⟩⟩
    · obtain ⟨hexecute, rfl⟩ := (Action.does_call _).mp ((does_withConnection u hs h).mp hsend)
      obtain rfl := (executor_iff u scope c q _ _).mp hexecute
      obtain ⟨rfl, rfl, rfl⟩ := (Action.does_ofExcept _).mp hreceive
      exact ⟨rfl, .inr ⟨q, _, rfl, rfl, rfl⟩⟩

/-- A statement on a connection of the pool, which is given back at once. -/
theorem does_run_pool (hdoes : ((u.handle .pool).run n).Does s acts r t) :
    (∃ e, u.compile n = .error e ∧ acts = [] ∧ r = .error e) ∨
      ∃ q calls opened, u.compile n = .ok q ∧ Opens s.initialized calls opened ∧
        ((∃ e, opened = .error e ∧ acts = calls.map .call ∧ r = .error e) ∨
          ∃ c a, opened = .ok c ∧ r = u.receive a ∧
            acts = calls.map .call ++ [.call (.execute c q a), .call (.release c)]) := by
  cases hn : u.compile n with
  | error e =>
    rw [run, runInto, does_bind_error (silent_compile u hn s)] at hdoes
    exact .inl ⟨e, rfl, hdoes.1, hdoes.2.1⟩
  | ok q =>
    rw [run, runInto, does_bind_ok (silent_compile u hn s)] at hdoes
    refine .inr ⟨q, ?_⟩
    obtain ⟨e, rfl, hsend⟩ | ⟨a, v, before, after, rfl, hsend, hreceive⟩ := does_bind.mp hdoes
    · obtain ⟨calls, _, opened, hopens, ⟨e', rfl, rfl, he⟩ | ⟨c, used, rfl, rfl, huse⟩⟩ :=
        does_withConnection_pool u hsend
      · cases he
        exact ⟨calls, _, rfl, hopens, .inl ⟨e, rfl, rfl, rfl⟩⟩
      · obtain ⟨hexecute, -⟩ := (Action.does_call _).mp huse
        obtain rfl := (executor_iff u .pool c q _ _).mp hexecute
        exact ⟨calls, _, rfl, hopens, .inr ⟨c, _, rfl, rfl, rfl⟩⟩
    · obtain ⟨calls, _, opened, hopens, ⟨e', rfl, rfl, he⟩ | ⟨c, used, rfl, rfl, huse⟩⟩ :=
        does_withConnection_pool u hsend
      · cases he
      · obtain ⟨hexecute, -⟩ := (Action.does_call _).mp huse
        obtain rfl := (executor_iff u .pool c q _ _).mp hexecute
        obtain ⟨rfl, rfl, -⟩ := (Action.does_ofExcept _).mp hreceive
        exact ⟨calls, _, rfl, hopens, .inr ⟨c, .ok a, rfl, rfl, by simp⟩⟩

end Statement

end Database

end SqlTree
