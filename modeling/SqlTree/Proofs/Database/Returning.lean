import SqlTree.Proofs.Database.Closure
import SqlTree.Proofs.Database.Operations
import SqlTree.Proofs.Database.Phase

/-!
# Connections that are given back open

Which operations give a connection back while a transaction is open on it (`Operation.Leaks`): the
end of a connection block on whose handle a transaction was begun by hand and not ended, a commit by
hand that fails, and the last handle that goes after such a commit.  No other operation does, in any
run (`World.returnsOpen_run_iff`).
-/

namespace SqlTree

open Call

namespace World

/-- What holds between operations. -/
structure Sound (w : World) : Prop where
  taken : ∀ {i c marked}, w.binding? i = some ⟨some c, marked⟩ → c.id < acquired w.calls
  /-- No connection is in two bindings. -/
  apart : ∀ {i j c marked marked'}, w.binding? i = some ⟨some c, marked⟩ →
    w.binding? j = some ⟨some c, marked'⟩ → i = j
  /-- A binding knows of its transaction until somebody tries to end it. -/
  marked_iff : ∀ {i c marked}, w.binding? i = some ⟨some c, marked⟩ →
    (marked = true ↔ phase c w.calls = .going)
  fresh : ∀ {c : Connection}, acquired w.calls ≤ c.id → phase c w.calls = .idle

/-- A connection that was given out and is in no binding, with no transaction on it. -/
structure Free (w : World) (c : Connection) : Prop where
  taken : c.id < acquired w.calls
  unbound : ∀ i marked, w.binding? i ≠ some ⟨some c, marked⟩
  idle : phase c w.calls = .idle

/-- From the world `w` to `v`, where `leaks` are the connections given back open in between. -/
structure Reaches (w v : World) (leaks : Connection → Prop) : Prop where
  sound : v.Sound
  returned : ∃ calls, v.calls = w.calls ++ calls ∧ ∀ c, Returned c w.calls calls ↔ leaks c

theorem sound_new : new.Sound where
  taken h := by simp [binding?, new] at h
  apart h := by simp [binding?, new] at h
  marked_iff h := by simp [binding?, new] at h
  fresh _ := rfl

variable {w v v' : World} {leaks leaks' : Connection → Prop} {i : Nat} {c : Connection}
  {marked : Bool} {calls : List Call}

theorem Reaches.congr (h : w.Reaches v leaks) (hleaks : ∀ c, leaks c ↔ leaks' c) :
    w.Reaches v leaks' := by
  obtain ⟨calls, hcalls, hreturned⟩ := h.returned
  exact ⟨h.sound, calls, hcalls, fun c => (hreturned c).trans (hleaks c)⟩

theorem Reaches.trans (h : w.Reaches v leaks) (h' : v.Reaches v' leaks') :
    w.Reaches v' fun c => leaks c ∨ leaks' c := by
  obtain ⟨xs, hxs, hleaks⟩ := h.returned
  obtain ⟨ys, hys, hleaks'⟩ := h'.returned
  refine ⟨h'.sound, xs ++ ys, by rw [hys, hxs, List.append_assoc], fun c => ?_⟩
  rw [returned_append, hleaks, ← hxs, hleaks']

/-- What is done before may be left out if it gives nothing back open. -/
theorem Reaches.after (h : w.Reaches v fun _ => False) (h' : v.Reaches v' leaks) :
    w.Reaches v' leaks :=
  (h.trans h').congr fun _ => iff_of_eq (false_or _)

namespace Sound

/-- Calls that neither begin nor end a transaction, with no connection put into a binding. -/
theorem quiet (h : w.Sound)
    (hbindings : ∀ i c marked, v.binding? i = some ⟨some c, marked⟩ →
      w.binding? i = some ⟨some c, marked⟩)
    (hv : v.calls = w.calls ++ calls) (hcalls : ∀ x ∈ calls, x.isQuiet = true)
    (hrelease : ∀ c, .release c ∈ calls → phase c w.calls = .idle) :
    w.Reaches v fun _ => False := by
  have hphase : ∀ c, phase c v.calls = phase c w.calls := fun c => by
    rw [hv, phase_append_quiet hcalls]
  have hacquired : acquired w.calls ≤ acquired v.calls := by
    rw [hv, acquired_append]
    omega
  refine ⟨⟨?_, ?_, ?_, ?_⟩, calls, hv, fun c => ⟨?_, False.elim⟩⟩
  · intro i c marked hb
    have := h.taken (hbindings _ _ _ hb)
    omega
  · intro i j c marked marked' hb hb'
    exact h.apart (hbindings _ _ _ hb) (hbindings _ _ _ hb')
  · intro i c marked hb
    rw [hphase]
    exact h.marked_iff (hbindings _ _ _ hb)
  · intro c hc
    rw [hphase]
    exact h.fresh (by omega)
  · rintro ⟨before, after, rfl, hopen⟩
    refine hopen ?_
    rw [phase_append_quiet fun x hx => hcalls x (List.mem_append_left _ hx)]
    exact hrelease c (by simp)

theorem refl (h : w.Sound) : w.Reaches w fun _ => False :=
  h.quiet (fun _ _ _ hb => hb) (List.append_nil _).symm (by simp) (by simp)

/-- A call that is none of those that matter. -/
theorem say {x : Call} (h : w.Sound) (hx : x.isQuiet = true) (hrelease : ∀ c, x ≠ .release c) :
    w.Reaches (w.say [x]) fun _ => False :=
  h.quiet (fun _ _ _ hb => hb) rfl (by simpa using hx) fun c hc =>
    absurd (List.mem_singleton.mp hc).symm (hrelease c)

/-- A connection without a transaction is put into a new binding. -/
theorem bind (h : w.Sound) (hc : w.Free c) :
    w.Reaches (w.bind ⟨some c, false⟩) fun _ => False := by
  refine ⟨⟨?_, ?_, ?_, h.fresh⟩, [], (List.append_nil _).symm,
    fun d => ⟨not_returned_nil, False.elim⟩⟩
  · intro i d marked hb
    obtain hb | ⟨-, hd⟩ := binding?_bind_cases hb
    · exact h.taken hb
    · cases hd
      exact hc.taken
  · intro i j d marked marked' hb hb'
    obtain hold | ⟨hi, hd⟩ := binding?_bind_cases hb
    · obtain hold' | ⟨-, hd⟩ := binding?_bind_cases hb'
      · exact h.apart hold hold'
      · cases hd
        exact absurd hold (hc.unbound _ _)
    · cases hd
      obtain hold' | ⟨hj, -⟩ := binding?_bind_cases hb'
      · exact absurd hold' (hc.unbound _ _)
      · rw [hi, hj]
  · intro i d marked hb
    obtain hb | ⟨-, hd⟩ := binding?_bind_cases hb
    · exact h.marked_iff hb
    · cases hd
      simp [hc.idle]

/-- Calls about a bound connection, which stays with its transaction known or is given back. -/
theorem put (h : w.Sound) (hb : w.binding? i = some ⟨some c, marked⟩)
    (hcalls : ∀ x ∈ calls, x.connection? = some c) {b : Binding}
    (hnew : ∀ d marked, b = ⟨some d, marked⟩ →
      d = c ∧ (marked = true ↔ phase c (w.calls ++ calls) = .going)) :
    w.Reaches ((w.say calls).put i b) fun d => Returned d w.calls calls := by
  have hcases : ∀ {j d marked'}, ((w.say calls).put i b).binding? j = some ⟨some d, marked'⟩ →
      j ≠ i ∧ w.binding? j = some ⟨some d, marked'⟩ ∨ j = i ∧ b = ⟨some d, marked'⟩ := by
    intro j d marked' hj
    by_cases hij : i = j
    · subst hij
      rw [binding?_put (w := w.say calls) hb] at hj
      exact .inr ⟨rfl, Option.some.inj hj⟩
    · rw [binding?_put_ne hij] at hj
      exact .inl ⟨Ne.symm hij, hj⟩
  have hacquired : acquired (w.calls ++ calls) = acquired w.calls := by
    rw [acquired_append, acquired_of_connection? hcalls, Nat.add_zero]
  refine ⟨⟨?_, ?_, ?_, ?_⟩, calls, rfl, fun d => Iff.rfl⟩
  · intro j d marked' hj
    rw [calls_put, calls_say, hacquired]
    obtain ⟨-, hj⟩ | ⟨-, hd⟩ := hcases hj
    · exact h.taken hj
    · obtain ⟨rfl, -⟩ := hnew d marked' hd
      exact h.taken hb
  · intro j k d marked' marked'' hj hk
    obtain ⟨-, hold⟩ | ⟨hji, hd⟩ := hcases hj
    · obtain ⟨-, hold'⟩ | ⟨hki, hd⟩ := hcases hk
      · exact h.apart hold hold'
      · obtain ⟨rfl, -⟩ := hnew d _ hd
        rw [hki]
        exact h.apart hold hb
    · obtain ⟨rfl, -⟩ := hnew d _ hd
      obtain ⟨-, hold'⟩ | ⟨hki, -⟩ := hcases hk
      · rw [hji]
        exact h.apart hb hold'
      · rw [hji, hki]
  · intro j d marked' hj
    rw [calls_put, calls_say]
    obtain ⟨hji, hj⟩ | ⟨rfl, hd⟩ := hcases hj
    · -- another binding holds another connection, which these calls are not about
      have hdc : d ≠ c := by
        rintro rfl
        exact hji (h.apart hj hb)
      rw [phase_append_other hcalls hdc]
      exact h.marked_iff hj
    · obtain ⟨rfl, hphase⟩ := hnew d _ hd
      exact hphase
  · intro d hd
    rw [calls_put, calls_say, hacquired] at hd
    have hdc : d ≠ c := by
      rintro rfl
      have := h.taken hb
      omega
    rw [calls_put, calls_say, phase_append_other hcalls hdc]
    exact h.fresh hd

/-- A bound connection is given back, after other calls about it. -/
theorem release (h : w.Sound) (hb : w.binding? i = some ⟨some c, marked⟩)
    (hcalls : ∀ x ∈ calls, x.connection? = some c) (hrelease : ∀ d, .release d ∉ calls) :
    w.Reaches ((w.put i ⟨none, false⟩).say (calls ++ [.release c])) fun d =>
      d = c ∧ phase c (w.calls ++ calls) ≠ .idle := by
  have hcalls' : ∀ x ∈ calls ++ [.release c], x.connection? = some c := fun x hx =>
    (List.mem_append.mp hx).elim (hcalls x) fun hx => by rw [List.mem_singleton.mp hx]; rfl
  exact (h.put hb hcalls' (by simp)).congr fun d => returned_concat_release (hrelease d)

/-- A transaction leaves its binding after calls that may have settled it. -/
theorem left (h : w.Sound) {p : Pinned} (hb : w.binding? p.binding = some ⟨some c, marked⟩)
    (hcalls : ∀ x ∈ calls, x.connection? = some c) (hrelease : ∀ d, .release d ∉ calls)
    (hphase : phase c (w.calls ++ calls) ≠ .going) :
    w.Reaches ((w.say calls).left p c) fun d =>
      d = c ∧ p.owned = true ∧ phase c (w.calls ++ calls) ≠ .idle := by
  rw [World.left]
  cases p.owned with
  | false =>
    refine (h.put hb hcalls fun d marked hd => ?_).congr fun d => ?_
    · cases hd
      exact ⟨rfl, by simp [hphase]⟩
    · exact iff_of_false (not_returned_of_not_mem (hrelease d)) fun h => Bool.false_ne_true h.2.1
  | true =>
    rw [if_pos rfl, ← put_say, say_say]
    exact (h.release hb hcalls hrelease).congr fun d => by simp

end Sound

end World

theorem Opens.isQuiet {initialized : Bool} {calls : List Call} {a : Except Error Connection}
    (h : Opens initialized calls a) :
    (∀ x ∈ calls, x.isQuiet = true) ∧ ∀ c, .release c ∉ calls := by
  cases h <;> exact ⟨by simp [Call.isQuiet], by simp⟩

theorem Opens.acquired {initialized : Bool} {calls : List Call} {c : Connection}
    (h : Opens initialized calls (.ok c)) : acquired calls = 1 := by
  cases h <;> rfl

theorem Settles.phase {c : Connection} {α : Type} {outcome r : Except Error α} {ending : List Call}
    (h : Settles c outcome ending r) :
    (∀ x ∈ ending, x.connection? = some c) ∧ (∀ d, .release d ∉ ending) ∧
      ∀ calls, phase c (calls ++ ending) = .idle := by
  cases h with
  | committed a =>
    exact ⟨by simp [connection?], by simp, fun calls => by simp [phase_concat, nextPhase]⟩
  | uncommitted a e back =>
    exact ⟨by simp [connection?], by simp, fun calls => by simp [phase_append, nextPhase]⟩
  | undone e back =>
    exact ⟨by simp [connection?], by simp, fun calls => by simp [phase_concat, nextPhase]⟩

namespace World.Sound

variable {w : World} {i : Nat} {c : Connection} {marked : Bool} (h : w.Sound) (u : Client)
include h

/-- A connection of the pool is free. -/
theorem acquire : ∃ a opened, (Database.acquire u.driver).on w = (a, opened) ∧
    (w.Reaches opened fun _ => False) ∧ ∀ c, a = .ok c → opened.Free c := by
  obtain ⟨calls, a, initialized, hopens, hon, hid⟩ := Database.on_acquire u w
  obtain ⟨hquiet, hrelease⟩ := hopens.isQuiet
  refine ⟨a, _, hon, ?_, ?_⟩
  · exact h.quiet (fun _ _ _ hb => hb) rfl hquiet fun c hc => absurd hc (hrelease c)
  · rintro c rfl
    obtain rfl := hid c rfl
    refine ⟨?_, fun i marked hb => ?_, ?_⟩
    · show _ < acquired (w.calls ++ calls)
      rw [acquired_append, hopens.acquired]
      exact Nat.lt_succ_self _
    · exact Nat.lt_irrefl _ (h.taken hb)
    · show phase _ (w.calls ++ calls) = _
      rw [phase_append_quiet hquiet]
      exact h.fresh (Nat.le_refl _)

/-- A single call on a bound connection, or on one of the pool that is given back. -/
theorem withConnection {α : Type} (scope : Scope)
    {use : Driver Taped → Connection → Action Taped α}
    (huse : ∀ c v, ∃ x, ((use u.driver c).on v).2 = v.say [x] ∧ x.isQuiet = true ∧
      ∀ d, x ≠ .release d) :
    w.Reaches (((u.handle scope).withConnection use).on w).2 fun _ => False := by
  have hbound : ∀ i, (u.handle scope).binding? = some i →
      w.Reaches (((u.handle scope).withConnection use).on w).2 fun _ => False := fun i hs => by
    cases hc : w.holds? i with
    | none =>
      rw [Database.on_withConnection_none u use hs hc]
      exact h.refl
    | some c =>
      obtain ⟨x, hx, hquiet, hrelease⟩ := huse c w
      rw [Database.on_withConnection u use hs hc, hx]
      exact h.say hquiet hrelease
  cases scope with
  | connection i => exact hbound i rfl
  | transaction i => exact hbound i rfl
  | pool =>
    obtain ⟨a, opened, hacquire, hopened, hfree⟩ := h.acquire u
    cases a with
    | error e =>
      rw [Database.on_withConnection_pool_error u use hacquire]
      exact hopened
    | ok c =>
      obtain ⟨x, hx, hquiet, hrelease⟩ := huse c opened
      rw [Database.on_withConnection_pool u use hacquire, hx, say_say]
      refine hopened.after (hopened.sound.quiet (fun _ _ _ hb => hb) rfl ?_ fun d hd => ?_)
      · simpa [Call.isQuiet] using hquiet
      · have hdx : Call.release d ≠ x := (hrelease d).symm
        obtain rfl : d = c := by simpa [hdx] using hd
        exact (hfree d rfl).idle

theorem run (scope : Scope) (n : Node) :
    w.Reaches (w.after u (.run scope n)) fun _ => False := by
  show w.Reaches (((u.handle scope).run n).on w).2 _
  cases hn : u.compile n with
  | error e =>
    rw [Database.on_run_unsent u hn]
    exact h.refl
  | ok q =>
    rw [Database.on_run_world u hn]
    refine h.withConnection u scope fun c v => ?_
    rw [Database.executor_eq, Action.on_call_answer]
    exact ⟨_, rfl, rfl, fun _ => nofun⟩

theorem stream (scope : Scope) (n : Node) (chunkSize : Nat) (limit : Option Nat) :
    w.Reaches (w.after u (.stream scope n chunkSize limit)) fun _ => False := by
  show w.Reaches (((u.handle scope).stream n chunkSize limit).on w).2 _
  cases hn : u.compile n with
  | error e =>
    rw [Database.on_stream_unsent u hn]
    exact h.refl
  | ok q =>
    rw [Database.on_stream_world u hn]
    exact h.withConnection u scope fun c v =>
      ⟨.stream c q chunkSize _, congrArg Prod.snd (Database.on_fetched u c q chunkSize v), rfl,
        fun _ => nofun⟩

/-- Beginning on a bound connection. -/
theorem begun (hb : w.binding? i = some ⟨some c, marked⟩) (s : TransactionSettings) :
    w.Reaches ((w.say [.begin c s (.ok ())]).put i ⟨some c, true⟩) fun _ => False := by
  refine (h.put hb (by simp [connection?]) fun d marked hd => ?_).congr fun d => ?_
  · cases hd
    simp [phase_concat, nextPhase]
  · exact iff_of_false (not_returned_of_not_mem (by simp)) id

theorem begin (scope : Scope) (s : TransactionSettings) :
    w.Reaches (w.after u (.begin scope s)) fun _ => False := by
  show w.Reaches (((u.handle scope).begin u.driver s).on w).2 _
  cases scope with
  | transaction i =>
    rw [Database.on_begin_transaction]
    exact h.refl
  | connection i =>
    cases hc : w.holds? i with
    | none =>
      rw [Database.on_begin_connection_none u s hc]
      exact h.refl
    | some c =>
      obtain ⟨marked, hb⟩ := exists_of_holds? hc
      rw [Database.on_begin_connection u s hb rfl]
      cases u.replies.begin w.calls c s with
      | error e => exact h.say rfl fun _ => nofun
      | ok a => exact h.begun hb s
  | pool =>
    obtain ⟨a, opened, hacquire, hopened, hfree⟩ := h.acquire u
    cases a with
    | error e =>
      rw [Database.on_begin_pool_error u s hacquire]
      exact hopened
    | ok c =>
      have hc := hfree c rfl
      rw [Database.on_begin_pool u s hacquire]
      cases u.replies.begin opened.calls c s with
      | error e =>
        refine hopened.after (hopened.sound.quiet ?_ rfl (by simp [Call.isQuiet]) fun d hd => ?_)
        · intro i d marked hb
          obtain hb | ⟨-, hd⟩ := binding?_bind_cases hb
          · exact hb
          · cases hd
        · obtain rfl : d = c := by simpa using hd
          exact hc.idle
      | ok a =>
        have hbound := hopened.after (hopened.sound.bind hc)
        refine hbound.after ?_
        have := hbound.sound.begun (w := opened.bind ⟨some c, false⟩)
          World.binding?_bind_length s
        rwa [← World.put_say, World.put_bind] at this

/-- The list of those ended by hand is nothing that a connection depends on. -/
theorem setEnded (number : Nat) : w.Reaches (w.setEnded number) fun _ => False :=
  h.quiet (fun _ _ _ hb => hb) (List.append_nil _).symm (by simp) (by simp)

theorem start (scope : Scope) (s : TransactionSettings) :
    w.Reaches (w.after u (.start scope s)) fun _ => False := by
  have hbegin := h.begin u scope s
  show w.Reaches (((u.handle scope).startTransaction s).on w).2 _
  rcases hbegun : ((u.handle scope).begin u.driver s).on w with ⟨r, begun⟩
  rw [show w.after u (.begin scope s) = begun from congrArg Prod.snd hbegun] at hbegin
  rw [Database.startTransaction, Action.on_bind_ok (Database.on_requireDriver u w _)]
  cases r with
  | error e =>
    rw [Action.on_bind_error hbegun]
    exact hbegin
  | ok p =>
    rw [Action.on_bind_ok hbegun]
    exact hbegin.after (hbegin.sound.quiet (fun _ _ _ hb => hb) (List.append_nil _).symm
      (by simp) (by simp))

theorem finish (p : Pinned) (outcome : Except Error Unit) :
    w.Reaches (w.after u (.finish p outcome)) fun _ => False := by
  show w.Reaches (((u.handle .pool).finish u.driver p outcome).on w).2 _
  cases hc : w.holds? p.binding with
  | none =>
    rw [Database.on_finish_none u .pool hc]
    exact h.refl
  | some c =>
    obtain ⟨marked, hb⟩ := exists_of_holds? hc
    obtain ⟨ending, r, hsettles, hon⟩ := Database.on_finish u .pool hb rfl outcome
    obtain ⟨hcalls, hrelease, hphase⟩ := hsettles.phase
    rw [hon]
    exact (h.left hb hcalls hrelease (by simp [hphase])).congr fun d => by simp [hphase]

/-- Ending by hand gives a connection back open only by a commit that fails. -/
theorem finishByHand (t : Controlled) (commit : Bool) :
    w.Reaches ((t.finish (u.handle .pool) commit).on w).2 fun d =>
      commit = true ∧ t.endedIn w = false ∧ t.pinned.owned = true ∧
        w.holds? t.pinned.binding = some d ∧ phase d w.calls ≠ .idle ∧
          ∃ e, u.replies.commit w.calls d = .error e := by
  cases hended : t.endedIn w with
  | true =>
    rw [Controlled.on_finish_ended u .pool hended]
    exact h.refl.congr fun d => by simp
  | false =>
    have hset := h.setEnded t.number
    cases hc : w.holds? t.pinned.binding with
    | none =>
      rw [Controlled.on_finish_none u .pool hended hc]
      exact hset.congr fun d => by simp
    | some c =>
      obtain ⟨marked, hb⟩ := exists_of_holds? hc
      have hb' : (w.setEnded t.number).binding? t.pinned.binding = some ⟨some c, marked⟩ := hb
      have hleft : ∀ x : Call, x.connection? = some c → (∀ d, x ≠ .release d) →
          phase c (w.calls ++ [x]) ≠ .going →
          w.Reaches (((w.setEnded t.number).say [x]).left t.pinned c) fun d =>
            d = c ∧ t.pinned.owned = true ∧ phase c (w.calls ++ [x]) ≠ .idle :=
        fun x hx hrelease hphase => hset.after <| hset.sound.left hb' (by simpa using hx)
          (fun d hd => hrelease d (List.mem_singleton.mp hd).symm) hphase
      rw [Controlled.on_finish u .pool hended hb rfl]
      cases commit with
      | false =>
        refine (hleft _ rfl (by simp) (by simp [phase_rollback])).congr fun d => ?_
        simp [phase_rollback]
      | true =>
        refine (hleft _ rfl (by simp) (phase_commit_ne_going _ _ _)).congr fun d => ?_
        rw [phase_commit_ne_idle_iff]
        constructor
        · rintro ⟨rfl, howned, hopen, he⟩
          exact ⟨rfl, rfl, howned, rfl, hopen, he⟩
        · rintro ⟨-, -, howned, hd, hopen, he⟩
          obtain rfl := Option.some.inj hd
          exact ⟨rfl, howned, hopen, he⟩

theorem onConnection (t : Controlled)
    {f : Driver Taped → Connection → Executor Taped → Taped (Except Error Unit)}
    (hf : ∀ c, ∃ x : Call, ((Action.call (f u.driver c ((u.handle .pool).executor u.driver c))).on
      w).2 = w.say [x] ∧ x.isQuiet = true ∧ ∀ d, x ≠ .release d) :
    w.Reaches ((t.onConnection (u.handle .pool) f).on w).2 fun _ => False := by
  cases hc : w.holds? t.pinned.binding with
  | none =>
    rw [Controlled.on_onConnection_none u .pool hc]
    exact h.refl
  | some c =>
    obtain ⟨x, hx, hquiet, hrelease⟩ := hf c
    rw [Controlled.on_onConnection u .pool hc, hx]
    exact h.say hquiet hrelease

theorem hold : w.Reaches (w.after u .hold) fun _ => False := by
  obtain ⟨a, opened, hacquire, hopened, hfree⟩ := h.acquire u
  cases a with
  | error e =>
    rw [Database.after_hold_error u hacquire]
    exact hopened
  | ok c =>
    rw [Database.after_hold u hacquire]
    exact hopened.after (hopened.sound.bind (hfree c rfl))

theorem letGo (i : Nat) :
    w.Reaches (w.after u (.letGo i)) fun d => w.holds? i = some d ∧ phase d w.calls ≠ .idle := by
  show w.Reaches ((Binding.release u.driver i).on w).2 _
  rw [Binding.on_release]
  cases hc : w.holds? i with
  | none =>
    rw [Option.toList_none, List.map_nil, say_nil]
    have hput : w.Reaches (w.put i ⟨none, false⟩) fun _ => False :=
      h.quiet (fun j c marked hb => binding?_of_put hb rfl) (List.append_nil _).symm
        (by simp) (by simp)
    exact hput.congr fun d => by simp
  | some c =>
    obtain ⟨marked, hb⟩ := exists_of_holds? hc
    refine (h.release hb (List.forall_mem_nil _) (by simp)).congr fun d => ?_
    rw [List.append_nil]
    constructor
    · rintro ⟨rfl, hopen⟩
      exact ⟨rfl, hopen⟩
    · rintro ⟨hd, hopen⟩
      obtain rfl := Option.some.inj hd
      exact ⟨rfl, hopen⟩

theorem abandon (i : Nat) :
    w.Reaches (((u.handle .pool).abandon u.driver i).on w).2 fun d =>
      w.holds? i = some d ∧ phase d w.calls = .unsettled := by
  cases hc : w.holds? i with
  | none =>
    rw [Database.on_abandon_none u .pool hc]
    exact h.refl.congr fun d => by simp
  | some c =>
    obtain ⟨marked, hb⟩ := exists_of_holds? hc
    have hmarked := h.marked_iff hb
    cases marked with
    | true =>
      rw [Database.on_abandon_inTransaction u .pool hb]
      refine (h.release hb (List.forall_mem_singleton.mpr rfl) (by simp)).congr fun d => ?_
      rw [phase_rollback]
      refine iff_of_false (by simp) ?_
      rintro ⟨hd, hopen⟩
      obtain rfl := Option.some.inj hd
      rw [hmarked.mp rfl] at hopen
      cases hopen
    | false =>
      rw [Database.on_abandon u .pool hb]
      refine (h.release hb (List.forall_mem_nil _) (by simp)).congr fun d => ?_
      rw [List.append_nil]
      constructor
      · rintro ⟨rfl, hopen⟩
        refine ⟨rfl, ?_⟩
        cases hphase : phase d w.calls with
        | idle => exact absurd hphase hopen
        | going => exact absurd (hmarked.mpr hphase) Bool.false_ne_true
        | unsettled => rfl
      · rintro ⟨hd, hopen⟩
        obtain rfl := Option.some.inj hd
        exact ⟨rfl, by simp [hopen]⟩

theorem destroy : w.Reaches (w.after u .destroy) fun _ => False := by
  have hdestroy : (u.handle .pool).destroy.on w = ((do
      if (← get).initialized then Action.call u.driver.destroy) : Action Taped Unit).on w := rfl
  show w.Reaches ((u.handle .pool).destroy.on w).2 _
  rw [hdestroy, Action.on_bind_ok (Action.on_get w)]
  cases w.shared.initialized with
  | false => exact h.refl
  | true => exact h.say rfl (by simp)

end World.Sound

/-- The operation gives the connection back while a transaction is open on it. -/
def Operation.Leaks (u : Client) (w : World) (c : Connection) : Operation → Prop
  | .letGo i => w.holds? i = some c ∧ phase c w.calls ≠ .idle
  | .commit t => t.endedIn w = false ∧ t.pinned.owned = true ∧
    w.holds? t.pinned.binding = some c ∧ phase c w.calls ≠ .idle ∧
      ∃ e, u.replies.commit w.calls c = .error e
  | .abandon i => w.holds? i = some c ∧ phase c w.calls = .unsettled
  | .drop t => t.pinned.owned = true ∧ w.holds? t.pinned.binding = some c ∧
    phase c w.calls = .unsettled
  | _ => False

namespace World

variable {w : World} (u : Client)

theorem Sound.after (h : w.Sound) (op : Operation) :
    w.Reaches (w.after u op) fun c => op.Leaks u w c := by
  cases op with
  | run scope n => exact h.run u scope n
  | stream scope n chunkSize limit => exact h.stream u scope n chunkSize limit
  | begin scope s => exact h.begin u scope s
  | finish p outcome => exact h.finish u p outcome
  | start scope s => exact h.start u scope s
  | commit t => exact (h.finishByHand u t true).congr fun c => by simp [Operation.Leaks]
  | rollback t => exact (h.finishByHand u t false).congr fun c => by simp [Operation.Leaks]
  | savepoint t name =>
    exact h.onConnection u t (f := fun d c run => d.savepoint c run name) fun c =>
      ⟨.savepoint c name (u.replies.savepoint w.calls c name), rfl, rfl, by simp⟩
  | rollbackTo t name =>
    exact h.onConnection u t (f := fun d c run => d.rollbackTo c run name) fun c =>
      ⟨.rollbackTo c name (u.replies.rollbackTo w.calls c name), rfl, rfl, by simp⟩
  | releaseSavepoint t name =>
    exact h.onConnection u t (f := fun d c run => d.releaseSavepoint c run name) fun c =>
      ⟨.releaseSavepoint c name (u.replies.releaseSavepoint w.calls c name), rfl, rfl, by simp⟩
  | drop t =>
    show w.Reaches ((t.drop (u.handle .pool)).on w).2 _
    rw [Controlled.on_drop]
    cases howned : t.pinned.owned with
    | false => exact h.refl.congr fun c => by simp [Operation.Leaks, howned]
    | true =>
      exact (h.abandon u t.pinned.binding).congr fun c => by simp [Operation.Leaks, howned]
  | hold => exact h.hold u
  | letGo i => exact h.letGo u i
  | abandon i => exact h.abandon u i
  | destroy => exact h.destroy u

theorem Sound.afterAll (h : w.Sound) (ops : List Operation) :
    w.Reaches (w.run u ops) fun c => ∃ before op later, ops = before ++ op :: later ∧
      op.Leaks u (w.run u before) c := by
  induction ops generalizing w with
  | nil => exact h.refl.congr fun c => by simp
  | cons op ops ih =>
    have hop := h.after u op
    refine (hop.trans (ih hop.sound)).congr fun c => ?_
    let leaks (before : List Operation) (op : Operation) : Prop := op.Leaks u (w.run u before) c
    exact (occurs_cons : Occurs leaks [] (op :: ops) ↔ _).symm

/-- Every program is a run of operations; and in whatever order operations are run, and whatever
the driver answers, a connection is given back with a transaction open exactly by those that leak
it. -/
theorem returnsOpen_run_iff :
    (∀ {α : Type} (p : Program α), ∃ ops, ((p.perform u).on new).2 = new.run u ops) ∧
      ∀ (ops : List Operation) (c : Connection), ReturnsOpen (new.run u ops).calls c ↔
        ∃ before op later, ops = before ++ op :: later ∧ op.Leaks u (new.run u before) c := by
  refine ⟨fun p => p.exists_run u new, fun ops c => ?_⟩
  obtain ⟨calls, hcalls, hreturned⟩ := (sound_new.afterAll u ops).returned
  rw [returnsOpen_iff, hcalls]
  exact hreturned c

end World

/-- A client of a driver that refuses commits and nothing else. -/
def Client.uncommitting : Client where
  dialect := .postgres
  replies := {
    init _ := .ok ()
    acquire _ := .ok ()
    execute _ _ _ := .ok {}
    stream _ _ _ _ := []
    begin _ _ _ := .ok ()
    commit _ _ := .error .unreadable
    rollback _ _ := .ok ()
    savepoint _ _ _ := .ok ()
    rollbackTo _ _ _ := .ok ()
    releaseSavepoint _ _ _ := .ok ()
    destroy _ := .ok () }

/-- Neither a commit by hand that fails nor the end of a connection block undoes the transaction. -/
theorem Client.returnsOpen_uncommitting :
    let db := uncommitting.handle .pool
    let byHand : Action Taped Unit := do
      let (t, db) ← db.startTransaction {}
      t.commit db
    let block := db.connection fun db => db.startTransaction {}
    ReturnsOpen (byHand.on .new).2.calls ⟨0⟩ ∧ ReturnsOpen (block.on .new).2.calls ⟨0⟩ := by
  let opening : List Call := [.init (.ok ()), .acquire (.ok ⟨0⟩)]
  constructor
  · exact ⟨opening, {}, [.commit ⟨0⟩ (.error .unreadable)], [], rfl, by simp [settles]⟩
  · exact ⟨opening, {}, [], [], rfl, by simp⟩

end SqlTree
