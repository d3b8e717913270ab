import SqlTree.Proofs.Database.Returning
import Mathlib.Data.Multiset.UnionInter

/-!
# Accounts of connections

From the calls of a driver and whatever holds connections: what was given out is held or was given
back, and what was given back is used no more (`Accounts`).
-/

namespace SqlTree

open Call

namespace Call

/-- The connection that a call gives out. -/
def granted? : Call → Option Connection
  | .acquire (.ok c) => some c
  | _ => none

/-- The connection that a call gives back. -/
def released? : Call → Option Connection
  | .release c => some c
  | _ => none

def granted (calls : List Call) : List Connection := calls.filterMap granted?

def released (calls : List Call) : List Connection := calls.filterMap released?

theorem granted_append (xs ys : List Call) : granted (xs ++ ys) = granted xs ++ granted ys :=
  List.filterMap_append

theorem released_append (xs ys : List Call) : released (xs ++ ys) = released xs ++ released ys :=
  List.filterMap_append

theorem mem_released {calls : List Call} {c : Connection} :
    c ∈ released calls ↔ .release c ∈ calls := by
  rw [released, List.mem_filterMap]
  constructor
  · rintro ⟨x, hx, hc⟩
    cases x with
    | release d => rwa [← Option.some.inj hc]
    | _ => cases hc
  · exact fun h => ⟨_, h, rfl⟩

theorem mem_granted {calls : List Call} {c : Connection} :
    c ∈ granted calls ↔ .acquire (.ok c) ∈ calls := by
  rw [granted, List.mem_filterMap]
  constructor
  · rintro ⟨x, hx, hc⟩
    cases x with
    | acquire a =>
      cases a with
      | error e => cases hc
      | ok d => rwa [← Option.some.inj hc]
    | _ => cases hc
  · exact fun h => ⟨_, h, rfl⟩

/-- Calls that neither give out a connection nor give one back. -/
def isPlain (x : Call) : Bool := x.granted?.isNone && x.released?.isNone

end Call

/-- Who gives back a connection uses it no more, and neither does anybody else. -/
def Spent (calls : List Call) : Prop :=
  calls.Pairwise fun x y => ∀ c, x = .release c → y.connection? ≠ some c

/-- Connections held somewhere, and the calls of the driver so far. -/
structure Accounts (held : Multiset Connection) (calls : List Call) : Prop where
  numbered : granted calls = (List.range (acquired calls)).map Connection.mk
  /-- What was given out is held or was given back. -/
  balanced : held + ↑(released calls) = (↑(granted calls) : Multiset Connection)
  spent : Spent calls

namespace Accounts

variable {held : Multiset Connection} {calls : List Call} {c : Connection} {x : Call}

theorem nodup (h : Accounts held calls) :
    (held + ↑(released calls) : Multiset Connection).Nodup := by
  rw [h.balanced, Multiset.coe_nodup, h.numbered]
  exact List.nodup_range.map fun i j heq => Connection.mk.inj heq

theorem not_mem_released (h : Accounts held calls) (hc : c ∈ held) : c ∉ released calls :=
  fun hreleased => Multiset.disjoint_left.mp (Multiset.nodup_add.mp h.nodup).2.2 hc
    (Multiset.mem_coe.mpr hreleased)

/-- Connections that were given out are held or were given back. -/
theorem mem_of_id_lt (h : Accounts held calls) (hid : c.id < acquired calls) :
    c ∈ held ∨ c ∈ released calls := by
  have hmem : c ∈ granted calls := by
    rw [h.numbered]
    exact List.mem_map.mpr ⟨c.id, List.mem_range.mpr hid, rfl⟩
  rw [← Multiset.mem_coe, ← h.balanced] at hmem
  exact (Multiset.mem_add.mp hmem).imp_right Multiset.mem_coe.mp

theorem spent_concat (h : Accounts held calls) (hx : ∀ c, x.connection? = some c → c ∈ held) :
    Spent (calls ++ [x]) := by
  refine List.pairwise_append.mpr ⟨h.spent, List.pairwise_singleton _ _, ?_⟩
  rintro y hy z hz c rfl hc
  obtain rfl := List.mem_singleton.mp hz
  exact h.not_mem_released (hx c hc) (mem_released.mpr hy)

/-- Connections are used where they are held. -/
theorem say (h : Accounts held calls) (hplain : x.isPlain = true)
    (hx : ∀ c, x.connection? = some c → c ∈ held) : Accounts held (calls ++ [x]) := by
  obtain ⟨hgranted, hreleased⟩ : x.granted? = none ∧ x.released? = none := by
    simpa [isPlain] using hplain
  have hacquired : acquired [x] = 0 := by
    cases x with
    | acquire a =>
      cases a with
      | error e => rfl
      | ok c => cases hgranted
    | _ => rfl
  refine ⟨?_, ?_, h.spent_concat hx⟩
  · rw [granted_append, acquired_append, hacquired, Nat.add_zero, ← h.numbered]
    simp [granted, hgranted]
  · rw [granted_append, released_append]
    simpa [granted, released, hgranted, hreleased] using h.balanced

theorem sayAll (h : Accounts held calls) {xs : List Call}
    (hxs : ∀ x ∈ xs, x.isPlain = true ∧ x.connection? = none) : Accounts held (calls ++ xs) := by
  induction xs generalizing calls with
  | nil => rwa [List.append_nil]
  | cons x xs ih =>
    obtain ⟨⟨hplain, hx⟩, hxs⟩ := List.forall_mem_cons.mp hxs
    rw [List.append_cons]
    exact ih (h.say hplain fun c hc => by rw [hx] at hc; cases hc) hxs

theorem release (h : Accounts (c ::ₘ held) calls) : Accounts held (calls ++ [.release c]) := by
  refine ⟨?_, ?_, h.spent_concat fun d hd => ?_⟩
  · rw [granted_append, acquired_append]
    show granted calls ++ [] = (List.range (acquired calls)).map Connection.mk
    rw [List.append_nil, h.numbered]
  · have hbalanced := h.balanced
    rw [Multiset.cons_add] at hbalanced
    rw [granted_append, released_append, ← Multiset.coe_add, ← Multiset.coe_add, ← hbalanced]
    show held + (_ + {c}) = c ::ₘ (held + _) + 0
    rw [Multiset.add_zero, ← Multiset.add_assoc, Multiset.add_comm, Multiset.singleton_add]
  · obtain rfl : c = d := Option.some.inj hd
    exact Multiset.mem_cons_self ..

theorem grant (h : Accounts held calls) :
    Accounts (⟨acquired calls⟩ ::ₘ held) (calls ++ [.acquire (.ok ⟨acquired calls⟩)]) := by
  refine ⟨?_, ?_, h.spent_concat fun d hd => by cases hd⟩
  · rw [granted_append, acquired_append, h.numbered]
    simp [granted, granted?, acquired, List.range_succ]
  · rw [granted_append, released_append, ← Multiset.coe_add, ← Multiset.coe_add, ← h.balanced]
    show ⟨acquired calls⟩ ::ₘ held + (_ + 0) = held + _ + {⟨acquired calls⟩}
    rw [Multiset.add_zero, Multiset.cons_add, ← Multiset.singleton_add, Multiset.add_comm]

end Accounts

theorem Opens.calls_ok {initialized : Bool} {calls : List Call} {c : Connection}
    (h : Opens initialized calls (.ok c)) :
    ∃ opening, calls = opening ++ [.acquire (.ok c)] ∧
      ∀ x ∈ opening, x.isPlain = true ∧ x.connection? = none := by
  cases h with
  | ready => exact ⟨[], rfl, List.forall_mem_nil _⟩
  | fresh => exact ⟨[.init (.ok ())], rfl, List.forall_mem_singleton.mpr ⟨rfl, rfl⟩⟩

theorem Opens.calls_error {initialized : Bool} {calls : List Call} {e : Error}
    (h : Opens initialized calls (.error e)) :
    ∀ x ∈ calls, x.isPlain = true ∧ x.connection? = none := by
  cases h <;> simp [isPlain, granted?, released?, connection?]

namespace Accounts

variable {held : Multiset Connection} {calls : List Call}

/-- A connection of the pool is one that nobody had before. -/
theorem acquire {w v : World} {c : Connection} (h : Accounts held w.calls) (u : Client)
    (hacquire : (Database.acquire u.driver).on w = (.ok c, v)) :
    v.shared.bindings = w.shared.bindings ∧ Accounts (c ::ₘ held) v.calls := by
  obtain ⟨calls, a, initialized, hopens, hon, hid⟩ := Database.on_acquire u w
  obtain ⟨rfl, rfl⟩ := Prod.mk.inj (hacquire.symm.trans hon)
  obtain ⟨opening, rfl, hopening⟩ := hopens.calls_ok
  obtain rfl := hid c rfl
  have hopened := h.sayAll hopening
  have hacquired : acquired (w.calls ++ opening) = acquired w.calls := by
    have := hopens.acquired
    rw [acquired_append] at this ⊢
    simp only [Call.acquired] at this
    omega
  have hgrant := hopened.grant
  rw [hacquired, List.append_assoc] at hgrant
  exact ⟨rfl, hgrant⟩

end Accounts

theorem Binding.filterMap_cons (b : Binding) (bs : List Binding) :
    (b :: bs).filterMap Binding.connection =
      b.connection.toList ++ bs.filterMap Binding.connection := by
  cases h : b.connection <;> simp [h]

/-- What one binding holds takes the place of what another one held, wherever that is. -/
theorem Binding.modify_perm {bs : List Binding} {i : Nat} {b : Binding} (h : bs[i]? = some b)
    (b' : Binding) :
    (b.connection.toList ++ (bs.modify i fun _ => b').filterMap Binding.connection).Perm
      (b'.connection.toList ++ bs.filterMap Binding.connection) := by
  induction bs generalizing i with
  | nil => simp at h
  | cons a bs ih =>
    cases i with
    | zero =>
      obtain rfl := Option.some.inj h
      rw [List.modify_zero_cons, filterMap_cons, filterMap_cons]
      exact List.perm_append_comm_assoc ..
    | succ i =>
      rw [List.modify_succ_cons, filterMap_cons, filterMap_cons]
      exact (List.perm_append_comm_assoc ..).trans
        (((ih h).append_left _).trans (List.perm_append_comm_assoc ..))

namespace World

variable {w : World} {i : Nat} {c : Connection} {b : Binding}

/-- The connections that are in bindings. -/
def bound (w : World) : List Connection := w.shared.bindings.filterMap Binding.connection

theorem mem_bound : c ∈ w.bound ↔ ∃ i, w.holds? i = some c := by
  rw [bound, List.mem_filterMap]
  constructor
  · rintro ⟨b, hb, hc⟩
    obtain ⟨i, hi⟩ := List.mem_iff_getElem?.mp hb
    exact ⟨i, (holds?_of_binding? hi).trans hc⟩
  · rintro ⟨i, hi⟩
    obtain ⟨marked, hb⟩ := exists_of_holds? hi
    exact ⟨_, List.mem_of_getElem? hb, rfl⟩

theorem bound_congr {v : World} (h : v.shared.bindings = w.shared.bindings) :
    v.bound = w.bound := by
  rw [bound, h]
  rfl

theorem bound_bind : (w.bind b).bound = w.bound ++ b.connection.toList := by
  simp only [bound, bind, List.filterMap_append]
  cases h : b.connection <;> simp [h]

/-- Putting one binding in the place of another exchanges what they hold. -/
theorem bound_put (h : w.binding? i = some b) (b' : Binding) :
    (b.connection.toList ++ (w.put i b').bound).Perm (b'.connection.toList ++ w.bound) :=
  Binding.modify_perm h b'

theorem bound_emptied (h : w.holds? i = some c) (marked : Bool) :
    (↑w.bound : Multiset Connection) = c ::ₘ ↑(w.put i ⟨none, marked⟩).bound := by
  obtain ⟨marked', hb⟩ := exists_of_holds? h
  exact (Multiset.coe_eq_coe.mpr (bound_put hb ⟨none, marked⟩)).symm

theorem bound_marked (h : w.holds? i = some c) (marked : Bool) :
    (↑(w.put i ⟨some c, marked⟩).bound : Multiset Connection) = ↑w.bound := by
  obtain ⟨marked', hb⟩ := exists_of_holds? h
  have hperm := bound_put hb ⟨some c, marked⟩
  exact Multiset.coe_eq_coe.mpr ((List.perm_append_left_iff _).mp hperm)

end World

end SqlTree
