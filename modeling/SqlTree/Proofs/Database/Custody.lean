import SqlTree.Proofs.Database.Accounts
import SqlTree.Database.Stream
import Mathlib.Logic.Relation

/-!
# Custody of connections

A database in use, step by step: statements and streams borrow connections, handles share bindings,
and whatever holds a connection may go at any time, the last holder of a binding with what is in it
(`Scene.Step`).  Every connection that was given out is in one place, until it is given back once
(`Scene.Sound`).
-/

namespace SqlTree

open Call

/-- A connection borrowed for a statement or stream: one of the pool, or the one in a binding, which
nobody else may use meanwhile. -/
inductive Lease where
  | pooled (c : Connection)
  | pinned (i : Nat)
  deriving DecidableEq, Repr

def Lease.pooled? : Lease → Option Connection
  | .pooled c => some c
  | .pinned _ => none

/-- The connection of a lease. -/
def World.lent? (w : World) : Lease → Option Connection
  | .pooled c => some c
  | .pinned i => w.holds? i

theorem World.lent?_congr {w v : World} (h : v.shared.bindings = w.shared.bindings) :
    v.lent? = w.lent? :=
  funext fun l => by cases l <;> simp [lent?, holds?_congr h]

/-- A connection on which a task in the background undoes a transaction, and whether it has. -/
structure Undoing where
  connection : Connection
  undone : Bool := false
  deriving DecidableEq, Repr

/-- A database in use. -/
structure Scene where
  world : World
  /-- The bindings that handles refer to, each as often as there are handles. -/
  handles : Multiset Nat := 0
  leases : Multiset Lease := 0
  /-- The streams whose task has a lease and goes on. -/
  streams : Multiset (Lease × Stream) := 0
  undoing : Multiset Undoing := 0

namespace Scene

variable (s : Scene)

/-- All leases, those of streams included. -/
def taken : Multiset Lease := s.leases + s.streams.map Prod.fst

/-- Somebody may still use what is in a binding. -/
def IsReferenced (i : Nat) : Prop := i ∈ s.handles ∨ .pinned i ∈ s.taken

instance (i : Nat) : Decidable (s.IsReferenced i) := inferInstanceAs (Decidable (_ ∨ _))

/-- Somebody who referred to a binding has gone.  The last one takes along what is in it: a
connection is given back, after a transaction that was left open on it is undone in the
background. -/
def settle (i : Nat) : Scene :=
  if s.IsReferenced i then s
  else match s.world.binding? i with
    | some ⟨some c, false⟩ => { s with world := (s.world.put i ⟨none, false⟩).say [.release c] }
    | some ⟨some c, true⟩ =>
      { s with world := s.world.put i ⟨none, false⟩, undoing := ⟨c, false⟩ ::ₘ s.undoing }
    | _ => s

/-- Somebody who had a lease has given it up. -/
def giveBack : Lease → Scene
  | .pooled c => { s with world := s.world.say [.release c] }
  | .pinned i => s.settle i

/-- All connections that are held somewhere. -/
def held : Multiset Connection :=
  s.taken.filterMap Lease.pooled? + s.undoing.map Undoing.connection + ↑s.world.bound

/-- One step of a database in use.  What uses a connection may be cut short between any two steps:
its lease is given up, and the handles it had are dropped. -/
inductive Step (u : Client) : Scene → Scene → Prop
  /-- The driver is asked for something that no connection has to do with. -/
  | aside {s : Scene} {v : World} {calls : List Call}
    (hbindings : v.shared.bindings = s.world.shared.bindings)
    (hcalls : v.calls = s.world.calls ++ calls)
    (hplain : ∀ x ∈ calls, x.isPlain = true ∧ x.connection? = none) :
    Step u s { s with world := v }
  /-- A connection of the pool is borrowed. -/
  | lease {s : Scene} {v : World} {c : Connection}
    (h : (Database.acquire u.driver).on s.world = (.ok c, v)) :
    Step u s { s with world := v, leases := .pooled c ::ₘ s.leases }
  /-- A connection of the pool is put into a binding, for the first handle on it. -/
  | hold {s : Scene} {v : World} {i : Nat} (h : (Operation.hold.action u).on s.world = (.ok i, v)) :
    Step u s { s with world := v, handles := i ::ₘ s.handles }
  /-- A handle is copied, or kept by a statement or a task. -/
  | share {s : Scene} {i : Nat} (h : i ∈ s.handles) :
    Step u s { s with handles := i ::ₘ s.handles }
  /-- What is in a binding is borrowed, once nobody else has it. -/
  | lock {s : Scene} {i : Nat} (h : i ∈ s.handles) (hfree : .pinned i ∉ s.taken) :
    Step u s { s with leases := .pinned i ::ₘ s.leases }
  /-- A connection is used by who borrows it, in whatever way and with whatever result. -/
  | use {s : Scene} {l : Lease} {c : Connection} {x : Call} (hl : l ∈ s.leases)
    (hc : s.world.lent? l = some c) (hx : x.connection? = some c) (hplain : x.isPlain = true) :
    Step u s { s with world := s.world.say [x] }
  /-- A transaction is begun or ended in a binding. -/
  | mark {s : Scene} {i : Nat} {c : Connection} (hl : .pinned i ∈ s.leases)
    (hc : s.world.holds? i = some c) (inTransaction : Bool) :
    Step u s { s with world := s.world.put i ⟨some c, inTransaction⟩ }
  /-- What is in a binding is given back before its handles go. -/
  | letGo {s : Scene} {i : Nat} (hl : .pinned i ∈ s.leases) :
    Step u s { s with world := ((Binding.release u.driver i).on s.world).2 }
  /-- A stream begins, and its task takes over the lease. -/
  | stream {s : Scene} {l : Lease} {c : Connection} (hc : s.world.lent? l = some c) (q : Compiled)
    (chunkSize : Nat) (chunks : List (Except Error QueryResult)) :
    Step u { s with leases := l ::ₘ s.leases }
      { s with
        world := s.world.say [.stream c q chunkSize chunks]
        streams := (l, { task := .fetching chunks }) ::ₘ s.streams }
  /-- The task of a stream goes on. -/
  | advance {s : Scene} {l : Lease} {x y : Stream} (h : x.step? u.plugins = some y) :
    Step u { s with streams := (l, x) ::ₘ s.streams } { s with streams := (l, y) ::ₘ s.streams }
  /-- The reader of a stream takes what has arrived, or goes. -/
  | read {s : Scene} {l : Lease} {x y : Stream}
    (h : x.receive? = some y ∨ (∃ r, x.take? = some (r, y)) ∨ y = x.close) :
    Step u { s with streams := (l, x) ::ₘ s.streams } { s with streams := (l, y) ::ₘ s.streams }
  /-- The task of a stream has ended and gives its lease up. -/
  | stop {s : Scene} {l : Lease} {x : Stream} (h : x.task = .ended) :
    Step u { s with streams := (l, x) ::ₘ s.streams } (s.giveBack l)
  /-- A lease is given up. -/
  | giveUp {s : Scene} {l : Lease} : Step u { s with leases := l ::ₘ s.leases } (s.giveBack l)
  /-- A handle goes. -/
  | drop {s : Scene} {i : Nat} : Step u { s with handles := i ::ₘ s.handles } (s.settle i)
  /-- A transaction is undone in the background. -/
  | undo {s : Scene} {c : Connection} (a : Except Error Unit) :
    Step u { s with undoing := ⟨c, false⟩ ::ₘ s.undoing }
      { s with world := s.world.say [.rollback c a], undoing := ⟨c, true⟩ ::ₘ s.undoing }
  /-- A connection is given back after a transaction on it was undone in the background. -/
  | undone {s : Scene} {c : Connection} :
    Step u { s with undoing := ⟨c, true⟩ ::ₘ s.undoing }
      { s with world := s.world.say [.release c] }

end Scene

/-- Every connection is accounted for, and streams have theirs. -/
structure Custody (s : Scene) : Prop where
  accounts : Accounts s.held s.world.calls
  exclusive : ∀ i, s.taken.count (.pinned i) ≤ 1
  supplied : ∀ {l x}, (l, x) ∈ s.streams → ∃ c, s.world.lent? l = some c
  emptied : ∀ {i marked}, s.world.binding? i = some ⟨none, marked⟩ → marked = false

/-- What holds in every scene. -/
structure Scene.Sound (s : Scene) : Prop extends Custody s where
  /-- A binding that nobody refers to is empty. -/
  kept : ∀ i c, s.world.holds? i = some c → s.IsReferenced i

namespace Scene

variable {s : Scene} {i : Nat} {c : Connection} {l : Lease} {x : Stream}

/-- Who has a lease holds its connection. -/
theorem mem_held (hl : l ∈ s.taken) (hc : s.world.lent? l = some c) : c ∈ s.held := by
  simp only [held, Multiset.mem_add, Multiset.mem_filterMap, Multiset.mem_coe]
  cases l with
  | pooled d => exact .inl (.inl ⟨_, hl, hc⟩)
  | pinned i => exact .inr (World.mem_bound.mpr ⟨i, hc⟩)

@[simp] theorem taken_lease :
    ({ s with leases := l ::ₘ s.leases } : Scene).taken = l ::ₘ s.taken :=
  Multiset.cons_add ..

@[simp] theorem taken_stream :
    ({ s with streams := (l, x) ::ₘ s.streams } : Scene).taken = l ::ₘ s.taken := by
  simp [taken]

theorem held_pooled :
    ({ s with leases := .pooled c ::ₘ s.leases } : Scene).held = c ::ₘ s.held := by
  rw [held, taken_lease, Multiset.filterMap_cons_some Lease.pooled? _ _ rfl, Multiset.cons_add,
    Multiset.cons_add]
  rfl

theorem held_pinned :
    ({ s with leases := .pinned i ::ₘ s.leases } : Scene).held = s.held := by
  rw [held, taken_lease, Multiset.filterMap_cons_none _ _ rfl]
  rfl

theorem held_stream : ({ s with streams := (l, x) ::ₘ s.streams } : Scene).held =
    ({ s with leases := l ::ₘ s.leases } : Scene).held := by
  rw [held, held, taken_lease, taken_stream]

theorem held_undoing (undone : Bool) :
    ({ s with undoing := ⟨c, undone⟩ ::ₘ s.undoing } : Scene).held = c ::ₘ s.held := by
  rw [held, Multiset.map_cons, Multiset.add_cons, Multiset.cons_add]
  rfl

theorem held_world {v : World} (h : v.bound = s.world.bound) :
    ({ s with world := v } : Scene).held = s.held := by
  show _ + (↑v.bound : Multiset Connection) = _
  rw [h]
  rfl

end Scene

namespace Custody

variable {s t : Scene} {v : World} {i : Nat} {c : Connection} {l : Lease} {x y : Stream}

/-- Nothing happens to the bindings. -/
theorem congr (h : Custody s) (hbindings : t.world.shared.bindings = s.world.shared.bindings)
    (haccounts : Accounts t.held t.world.calls) (hexclusive : ∀ i, t.taken.count (.pinned i) ≤ 1)
    (hsupplied : ∀ l x, (l, x) ∈ t.streams → ∃ c, s.world.lent? l = some c) : Custody t := by
  refine ⟨haccounts, hexclusive, fun hx => ?_, fun hi => ?_⟩
  · rw [World.lent?_congr hbindings]
    exact hsupplied _ _ hx
  · rw [World.binding?_congr hbindings] at hi
    exact h.emptied hi

/-- A binding is emptied that no stream depends on. -/
theorem empty (h : Custody s)
    (hbindings : t.world.shared.bindings = (s.world.put i ⟨none, false⟩).shared.bindings)
    (haccounts : Accounts t.held t.world.calls) (htaken : t.taken = s.taken)
    (hstreams : t.streams = s.streams) (hfree : ∀ x, (.pinned i, x) ∉ s.streams) : Custody t := by
  refine ⟨haccounts, htaken ▸ h.exclusive, fun {l x} hx => ?_, fun {j marked} hj => ?_⟩
  · rw [hstreams] at hx
    obtain ⟨c, hc⟩ := h.supplied hx
    refine ⟨c, ?_⟩
    cases l with
    | pooled d => exact hc
    | pinned j =>
      have hij : i ≠ j := by
        rintro rfl
        exact hfree x hx
      rw [World.lent?_congr hbindings]
      exact (World.holds?_put_ne hij).trans hc
  · rw [World.binding?_congr hbindings] at hj
    by_cases hij : i = j
    · subst hij
      cases hb : s.world.binding? i with
      | none =>
        rw [World.binding?] at hb
        simp [World.binding?, World.put, hb] at hj
      | some b =>
        rw [World.binding?_put hb] at hj
        cases hj
        rfl
    · rw [World.binding?_put_ne hij] at hj
      exact h.emptied hj

/-- Somebody goes who may have been the last to refer to a binding. -/
theorem settle (h : Custody s)
    (hkept : ∀ j c, i ≠ j → s.world.holds? j = some c → s.IsReferenced j) :
    (s.settle i).Sound := by
  rw [Scene.settle]
  by_cases hi : s.IsReferenced i
  · rw [if_pos hi]
    refine ⟨h, fun j c hj => ?_⟩
    by_cases hij : i = j
    · exact hij ▸ hi
    · exact hkept j c hij hj
  · rw [if_neg hi]
    have hfree : ∀ x, (.pinned i, x) ∉ s.streams := fun x hx =>
      hi (.inr (Multiset.mem_add.mpr (.inr (Multiset.mem_map.mpr ⟨_, hx, rfl⟩))))
    have hkept' : ∀ j c, (s.world.put i ⟨none, false⟩).holds? j = some c → s.IsReferenced j :=
      fun j c hj => (World.holds?_emptied hj).elim (hkept j c)
    have hnothing : s.world.holds? i = none → s.Sound := fun hnone => by
      refine ⟨h, fun j c hj => hkept j c ?_ hj⟩
      rintro rfl
      rw [hnone] at hj
      cases hj
    cases hb : s.world.binding? i with
    | none => exact hnothing (by rw [World.holds?, hb]; rfl)
    | some b =>
      obtain ⟨connection, marked⟩ := b
      cases connection with
      | none => exact hnothing (World.holds?_of_binding? hb)
      | some c =>
        have hheld := World.bound_emptied (World.holds?_of_binding? hb) false
        have haccounts := h.accounts
        rw [Scene.held, hheld, Multiset.add_cons] at haccounts
        cases marked with
        | false => exact ⟨h.empty (i := i) rfl haccounts.release rfl rfl hfree, hkept'⟩
        | true =>
          refine ⟨h.empty (i := i) rfl ?_ rfl rfl hfree, hkept'⟩
          rw [Scene.held, Multiset.map_cons, Multiset.add_cons, Multiset.cons_add]
          exact haccounts

end Custody

namespace Scene

variable {s t : Scene} {v : World} {i : Nat} {c : Connection} {l : Lease} {x y : Stream}

theorem IsReferenced.lease (h : s.IsReferenced i) :
    ({ s with leases := l ::ₘ s.leases } : Scene).IsReferenced i :=
  h.imp_right fun htaken => taken_lease ▸ Multiset.mem_cons_of_mem htaken

theorem IsReferenced.handle {j : Nat} (h : s.IsReferenced i) :
    ({ s with handles := j ::ₘ s.handles } : Scene).IsReferenced i :=
  h.imp_left (Multiset.mem_cons_of_mem ·)

/-- The task of a stream has a lease like anybody else. -/
theorem sound_stream_iff (hx : ∃ c, s.world.lent? l = some c) :
    ({ s with streams := (l, x) ::ₘ s.streams } : Scene).Sound ↔
      ({ s with leases := l ::ₘ s.leases } : Scene).Sound := by
  have htaken : ({ s with streams := (l, x) ::ₘ s.streams } : Scene).taken =
      ({ s with leases := l ::ₘ s.leases } : Scene).taken := by
    rw [taken_stream, taken_lease]
  constructor
  · intro h
    refine ⟨h.toCustody.congr rfl (held_stream ▸ h.accounts) (htaken ▸ h.exclusive)
      fun k y hy => ?_, fun j d hj => (h.kept j d hj).imp_right (htaken ▸ ·)⟩
    exact h.supplied (Multiset.mem_cons_of_mem hy)
  · intro h
    refine ⟨h.toCustody.congr rfl (held_stream ▸ h.accounts) (htaken ▸ h.exclusive)
      fun k y hy => ?_, fun j d hj => (h.kept j d hj).imp_right (htaken ▸ ·)⟩
    obtain heq | hy := Multiset.mem_cons.mp hy
    · rwa [(Prod.mk.inj heq).1]
    · exact h.supplied hy

namespace Sound

/-- The bindings and who refers to them stay. -/
theorem congr (h : s.Sound) (hbindings : t.world.shared.bindings = s.world.shared.bindings)
    (haccounts : Accounts t.held t.world.calls) (htaken : t.taken = s.taken)
    (hstreams : t.streams = s.streams) (hhandles : ∀ i ∈ s.handles, i ∈ t.handles) : t.Sound := by
  refine ⟨h.toCustody.congr hbindings haccounts (htaken ▸ h.exclusive) fun l x hx =>
    h.supplied (hstreams ▸ hx), fun j d hj => ?_⟩
  rw [World.holds?_congr hbindings] at hj
  exact (h.kept j d hj).imp (hhandles j) (htaken ▸ ·)

theorem say (h : s.Sound) (hbindings : v.shared.bindings = s.world.shared.bindings)
    (haccounts : Accounts s.held v.calls) : ({ s with world := v } : Scene).Sound := by
  refine h.congr hbindings ?_ rfl rfl fun i hi => hi
  rwa [held_world (World.bound_congr hbindings)]

/-- A lease is given up. -/
theorem giveBack (h : ({ s with leases := l ::ₘ s.leases } : Scene).Sound) :
    (s.giveBack l).Sound := by
  have hexclusive : ∀ i, s.taken.count (.pinned i) ≤ 1 := fun i => by
    refine le_trans ?_ (h.exclusive i)
    rw [taken_lease]
    exact Multiset.count_le_count_cons ..
  have hreferenced : ∀ j, .pinned j ≠ l →
      ({ s with leases := l ::ₘ s.leases } : Scene).IsReferenced j → s.IsReferenced j := by
    rintro j hj (hhandle | htaken)
    · exact .inl hhandle
    · rw [taken_lease] at htaken
      exact .inr ((Multiset.mem_cons.mp htaken).resolve_left hj)
  have haccounts := h.accounts
  cases l with
  | pooled c =>
    rw [held_pooled] at haccounts
    refine ⟨h.toCustody.congr rfl haccounts.release hexclusive fun l x hx => h.supplied hx,
      fun j c hj => ?_⟩
    exact hreferenced j nofun (h.kept j c hj)
  | pinned i =>
    rw [held_pinned] at haccounts
    refine (h.toCustody.congr (t := s) rfl haccounts hexclusive fun l x hx => h.supplied hx).settle
      fun j c hij hj => ?_
    exact hreferenced j (fun heq => hij (Lease.pinned.inj heq).symm) (h.kept j c hj)

/-- A handle goes. -/
theorem drop (h : ({ s with handles := i ::ₘ s.handles } : Scene).Sound) :
    (s.settle i).Sound := by
  refine (h.toCustody.congr (t := s) rfl h.accounts h.exclusive fun l x hx => h.supplied hx).settle
    fun j c hij hj => ?_
  exact (h.kept j c hj).imp_left fun hhandle =>
    (Multiset.mem_cons.mp hhandle).resolve_left (Ne.symm hij)

/-- A connection that nobody had is borrowed. -/
theorem lend (h : s.Sound) (hbindings : v.shared.bindings = s.world.shared.bindings)
    (haccounts : Accounts (c ::ₘ s.held) v.calls) :
    ({ s with world := v, leases := .pooled c ::ₘ s.leases } : Scene).Sound := by
  let s' : Scene := { s with world := v }
  have htaken : ({ s with world := v, leases := .pooled c ::ₘ s.leases } : Scene).taken =
      .pooled c ::ₘ s.taken := taken_lease (s := s')
  refine ⟨h.toCustody.congr hbindings ?_ (fun i => ?_) fun l x hx => h.supplied hx,
    fun j d hj => ?_⟩
  · rw [← held_world (World.bound_congr hbindings)] at haccounts
    exact held_pooled (s := s') ▸ haccounts
  · rw [htaken, Multiset.count_cons_of_ne (by simp)]
    exact h.exclusive i
  · exact IsReferenced.lease (s := s') (h.kept j d (World.holds?_congr hbindings ▸ hj))

/-- A connection that nobody had is put into a new binding. -/
theorem bind (h : s.Sound) (hbindings : v.shared.bindings = s.world.shared.bindings)
    (haccounts : Accounts (c ::ₘ s.held) v.calls) :
    ({ s with
      world := v.bind ⟨some c, false⟩
      handles := v.shared.bindings.length ::ₘ s.handles } : Scene).Sound := by
  have hcases : ∀ {j b}, (v.bind ⟨some c, false⟩).binding? j = some b →
      s.world.binding? j = some b ∨ j = v.shared.bindings.length ∧ b = ⟨some c, false⟩ :=
    fun hj => by
      rw [← World.binding?_congr hbindings]
      exact World.binding?_bind_cases hj
  have hheld : c ::ₘ s.held = s.taken.filterMap Lease.pooled? +
      s.undoing.map Undoing.connection + ↑(v.bind ⟨some c, false⟩).bound := by
    rw [World.bound_bind, World.bound_congr hbindings, ← Multiset.coe_add, ← Multiset.add_assoc,
      Multiset.add_comm (_ + _)]
    rfl
  rw [hheld] at haccounts
  refine ⟨⟨haccounts, h.exclusive, fun {l x} hx => ?_, fun {j marked} hj => ?_⟩,
    fun j d hj => ?_⟩
  · obtain ⟨d, hd⟩ := h.supplied hx
    refine ⟨d, ?_⟩
    cases l with
    | pooled d' => exact hd
    | pinned j =>
      obtain ⟨marked, hb⟩ := World.exists_of_holds? hd
      rw [← World.binding?_congr hbindings] at hb
      exact World.holds?_of_binding? (World.binding?_bind hb)
  · obtain hj | ⟨-, hb⟩ := hcases hj
    · exact h.emptied hj
    · cases hb
  · obtain ⟨marked, hb⟩ := World.exists_of_holds? hj
    obtain hb | ⟨rfl, -⟩ := hcases hb
    · exact IsReferenced.handle (s := { s with world := v })
        (h.kept j d (World.holds?_of_binding? hb))
    · exact .inl (Multiset.mem_cons_self ..)

/-- What is in a binding is borrowed. -/
theorem lock (h : s.Sound) (hfree : .pinned i ∉ s.taken) :
    ({ s with leases := .pinned i ::ₘ s.leases } : Scene).Sound := by
  refine ⟨h.toCustody.congr rfl ?_ (fun j => ?_) fun l x hx => h.supplied hx,
    fun j d hj => (h.kept j d hj).lease⟩
  · rw [held_pinned]
    exact h.accounts
  · rw [taken_lease, Multiset.count_cons]
    split
    · next hij => rw [hij, Multiset.count_eq_zero.mpr hfree]
    · exact h.exclusive j

/-- Whether there is a transaction in a binding changes nothing about its connection. -/
theorem mark (h : s.Sound) (hc : s.world.holds? i = some c) (inTransaction : Bool) :
    ({ s with world := s.world.put i ⟨some c, inTransaction⟩ } : Scene).Sound := by
  have hholds := World.holds?_marked hc inTransaction
  refine ⟨⟨?_, h.exclusive, fun {l x} hx => ?_, fun {j marked} hj => ?_⟩, fun j d hj => ?_⟩
  · show Accounts (_ + ↑(s.world.put i ⟨some c, inTransaction⟩).bound) s.world.calls
    rw [World.bound_marked hc]
    exact h.accounts
  · obtain ⟨d, hd⟩ := h.supplied hx
    refine ⟨d, ?_⟩
    cases l with
    | pooled d' => exact hd
    | pinned j => exact (congrFun hholds j).trans hd
  · by_cases hij : i = j
    · obtain ⟨marked, hb⟩ := World.exists_of_holds? hc
      rw [← hij, World.binding?_put hb] at hj
      cases hj
    · exact h.emptied ((World.binding?_put_ne hij).symm.trans hj)
  · exact h.kept j d ((congrFun hholds j).symm.trans hj)

/-- What is in a binding is given back by who borrows it. -/
theorem letGo (h : s.Sound) (hl : .pinned i ∈ s.leases) (u : Client) :
    ({ s with world := ((Binding.release u.driver i).on s.world).2 } : Scene).Sound := by
  -- the task of a stream would have the same lease
  have hfree : ∀ x, (.pinned i, x) ∉ s.streams := fun x hx => by
    have hcount : 1 < s.taken.count (.pinned i) := by
      rw [taken, Multiset.count_add]
      have hleases := Multiset.count_pos.mpr hl
      have hstreams : 0 < (s.streams.map Prod.fst).count (.pinned i) :=
        Multiset.count_pos.mpr (Multiset.mem_map_of_mem Prod.fst hx)
      omega
    exact absurd (h.exclusive i) (by omega)
  rw [Binding.on_release]
  refine ⟨h.empty (i := i) rfl ?_ rfl rfl hfree, fun j d hj =>
    h.kept j d (World.holds?_emptied hj).2⟩
  show Accounts (_ + ↑(s.world.put i ⟨none, false⟩).bound) _
  have haccounts := h.accounts
  cases hc : s.world.holds? i with
  | none =>
    rw [World.put_emptied hc h.emptied]
    exact haccounts.sayAll (List.forall_mem_nil _)
  | some c =>
    rw [held, World.bound_emptied hc false, Multiset.add_cons] at haccounts
    exact haccounts.release

end Sound

theorem hold_eq {u : Client} {w v : World} (h : (Operation.hold.action u).on w = (.ok i, v)) :
    ∃ c opened, (Database.acquire u.driver).on w = (.ok c, opened) ∧
      v = opened.bind ⟨some c, false⟩ ∧ i = opened.shared.bindings.length := by
  rcases hacquire : (Database.acquire u.driver).on w with ⟨a, opened⟩
  cases a with
  | error e =>
    have hon : (Operation.hold.action u).on w = (.error e, opened) := Action.on_bind_error hacquire
    rw [hon] at h
    cases h
  | ok c =>
    have hon : (Operation.hold.action u).on w =
        (.ok opened.shared.bindings.length, opened.bind ⟨some c, false⟩) :=
      (Action.on_bind_ok hacquire).trans (Binding.on_new opened c)
    rw [hon] at h
    cases h
    exact ⟨c, opened, rfl, rfl, rfl⟩

/-- Every step keeps account of the connections. -/
theorem Step.sound {u : Client} (h : Step u s t) (hs : s.Sound) : t.Sound := by
  cases h with
  | aside hbindings hcalls hplain => exact hs.say hbindings (hcalls ▸ hs.accounts.sayAll hplain)
  | lease h =>
    obtain ⟨hbindings, haccounts⟩ := hs.accounts.acquire u h
    exact hs.lend hbindings haccounts
  | hold h =>
    obtain ⟨c, opened, hacquire, rfl, rfl⟩ := hold_eq h
    obtain ⟨hbindings, haccounts⟩ := hs.accounts.acquire u hacquire
    exact hs.bind hbindings haccounts
  | share h =>
    exact hs.congr rfl hs.accounts rfl rfl fun i hi => Multiset.mem_cons_of_mem hi
  | lock h hfree => exact hs.lock hfree
  | @use _ l c x hl hc hx hplain =>
    refine hs.say rfl (hs.accounts.say hplain fun d hd => ?_)
    obtain rfl : c = d := Option.some.inj (hx.symm.trans hd)
    exact mem_held (Multiset.mem_add.mpr (.inl hl)) hc
  | mark hl hc inTransaction => exact hs.mark hc inTransaction
  | letGo hl => exact hs.letGo hl u
  | @stream s l c hc q chunkSize chunks =>
    let sent := s.world.say [.stream c q chunkSize chunks]
    have hlent : sent.lent? l = some c := by
      rw [World.lent?_congr (v := sent) (w := s.world) rfl]
      exact hc
    refine (sound_stream_iff (s := { s with world := sent }) ⟨c, hlent⟩).mpr ?_
    refine hs.say rfl (hs.accounts.say rfl fun d hd => ?_)
    obtain rfl : c = d := Option.some.inj hd
    refine mem_held ?_ hc
    rw [taken_lease]
    exact Multiset.mem_cons_self ..
  | @advance s l x y h =>
    have hx := hs.supplied (Multiset.mem_cons_self ..)
    exact (sound_stream_iff (s := s) hx).mpr ((sound_stream_iff (s := s) hx).mp hs)
  | @read s l x y h =>
    have hx := hs.supplied (Multiset.mem_cons_self ..)
    exact (sound_stream_iff (s := s) hx).mpr ((sound_stream_iff (s := s) hx).mp hs)
  | @stop s l x h =>
    have hx := hs.supplied (Multiset.mem_cons_self ..)
    exact ((sound_stream_iff (s := s) hx).mp hs).giveBack
  | giveUp => exact hs.giveBack
  | drop => exact hs.drop
  | @undo s c a =>
    have haccounts := hs.accounts
    rw [held_undoing] at haccounts
    refine hs.congr rfl ?_ rfl rfl fun i hi => hi
    exact held_undoing (s := { s with world := _ }) true ▸ haccounts.say rfl fun d hd =>
      Option.some.inj hd ▸ Multiset.mem_cons_self ..
  | @undone s c =>
    have haccounts := hs.accounts
    rw [held_undoing] at haccounts
    exact hs.congr (t := { s with world := _ }) rfl haccounts.release rfl rfl fun i hi => hi

/-- Nobody has used the database. -/
def new : Scene := { world := .new }

abbrev Steps (u : Client) : Scene → Scene → Prop := Relation.ReflTransGen (Step u)

def Reachable (u : Client) (s : Scene) : Prop := Steps u new s

theorem sound_new : new.Sound where
  accounts := ⟨rfl, rfl, List.Pairwise.nil⟩
  exclusive i := Nat.zero_le _
  supplied h := absurd h (Multiset.notMem_zero _)
  emptied h := by simp [new, World.new, World.binding?] at h
  kept i c h := by simp [new, World.new, World.holds?, World.binding?] at h

theorem Steps.sound {u : Client} (h : Steps u s t) (hs : s.Sound) : t.Sound := by
  induction h with
  | refl => exact hs
  | tail _ hstep ih => exact hstep.sound ih

theorem Reachable.sound {u : Client} (h : Reachable u s) : s.Sound := Steps.sound h sound_new

end Scene

end SqlTree
