import SqlTree.Proofs.Database.Operations
import SqlTree.Proofs.Database.Requests
import Mathlib.Data.Multiset.AddSub
import Mathlib.Logic.Relation

/-!
# Turns at a transaction

A transaction that is ended by hand, used by many tasks at once.  What they ask of it waits for the
connection, which one of them has at a time (`Desk.Step`).  Whatever the order in which they get it,
the driver sees whole requests one after another, then one end of the transaction, and then the
connection is given back (`Desk.orderly`).
-/

namespace SqlTree

open Call

/-- What a task may ask of a transaction. -/
inductive Demand where
  | request (r : Request)
  | commit
  | rollback
  /-- The last handle goes. -/
  | drop

def Demand.perform (t : Controlled) (db : Database Taped) : Demand → Action Taped Answer
  | .request r => r.perform t db
  | .commit => do
    t.commit db
    return .done
  | .rollback => do
    t.rollback db
    return .done
  | .drop => do
    t.drop db
    return .done

/-- A demand that had the connection for itself, with its calls and what it came to. -/
structure Turn where
  demand : Demand
  calls : List Call
  result : Except Error Answer

/-- What a driver sees of a call. -/
inductive Event where
  | sent (x : Call)
  | answered (x : Call)

/-- A call is answered before the next is sent. -/
def Turn.events (x : Turn) : List Event := x.calls.flatMap fun call => [.sent call, .answered call]

/-- A turn that is under way, with what the driver has yet to see of it and what it leaves
behind. -/
structure Visit where
  turn : Turn
  rest : List Event
  world : World

/-- A transaction and those who wait for its connection. -/
structure Desk where
  world : World
  issued : Multiset Demand := 0
  waiting : Multiset Demand := 0
  current : Option Visit := none
  seen : List Event := []
  turns : List Turn := []

namespace Desk

section

variable (t : Controlled) (db : Database Taped)

/-- The turn of a demand that gets the connection. -/
def turn (w : World) (x : Demand) : Turn :=
  let done := (x.perform t db).on w
  ⟨x, done.2.calls.drop w.calls.length, done.1⟩

def visit (w : World) (x : Demand) : Visit :=
  ⟨turn t db w x, (turn t db w x).events, ((x.perform t db).on w).2⟩

inductive Step : Desk → Desk → Prop
  /-- A task asks for something. -/
  | issue {d : Desk} (x : Demand) :
    Step d { d with issued := x ::ₘ d.issued, waiting := x ::ₘ d.waiting }
  /-- The connection is free, and one of those who wait gets it. -/
  | take {d : Desk} {x : Demand} (hfree : d.current = none) :
    Step { d with waiting := x ::ₘ d.waiting } { d with current := some (visit t db d.world x) }
  /-- A call is sent or answered. -/
  | see {d : Desk} {e : Event} {v : Visit} {rest : List Event} (h : d.current = some v)
    (hrest : v.rest = e :: rest) :
    Step d { d with seen := d.seen ++ [e], current := some { v with rest } }
  /-- A turn is over. -/
  | yield {d : Desk} {v : Visit} (h : d.current = some v) (hrest : v.rest = []) :
    Step d { d with world := v.world, current := none, turns := d.turns ++ [v.turn] }

abbrev Steps : Desk → Desk → Prop := Relation.ReflTransGen (Step t db)

end

end Desk

section

variable (u : Client) (c : Connection)

/-- A request that ran, as one call on the connection; what does not compile is not sent. -/
inductive Turn.Ran : Turn → Prop
  | sent {r : Request} {x : Call} {a : Except Error Answer} (h : r.Sends u c x a) :
    Turn.Ran ⟨.request r, [x], a⟩
  | unsent {r : Request} {e : Error} (h : r.Unsent u e) : Turn.Ran ⟨.request r, [], .error e⟩

/-- The transaction is ended, and its connection is given back. -/
inductive Turn.Ended : Turn → Prop
  | commit (a : Except Error Unit) :
    Turn.Ended ⟨.commit, [.commit c a, .release c], a.map fun _ => .done⟩
  | rollback (a : Except Error Unit) :
    Turn.Ended ⟨.rollback, [.rollback c a, .release c], a.map fun _ => .done⟩
  | drop (a : Except Error Unit) : Turn.Ended ⟨.drop, [.rollback c a, .release c], .ok .done⟩

/-- Whoever comes too late is turned away, and nothing is sent. -/
inductive Turn.Late : Turn → Prop
  | request {r : Request} (h : r.Compiles u) :
    Turn.Late ⟨.request r, [], r.refused (.transaction .finished)⟩
  | unsent {r : Request} {e : Error} (h : r.Unsent u e) : Turn.Late ⟨.request r, [], .error e⟩
  | commit (e : TransactionFault) : Turn.Late ⟨.commit, [], .error (.transaction e)⟩
  | rollback (e : TransactionFault) : Turn.Late ⟨.rollback, [], .error (.transaction e)⟩
  | drop : Turn.Late ⟨.drop, [], .ok .done⟩

/-- Requests, until somebody ends the transaction; all others come too late. -/
def Orderly (turns : List Turn) : Prop :=
  (∀ x ∈ turns, x.Ran u c) ∨
    ∃ early last late, turns = early ++ last :: late ∧ (∀ x ∈ early, x.Ran u c) ∧
      last.Ended c ∧ ∀ x ∈ late, x.Late u

/-- What the turns so far have left behind. -/
inductive Stage (t : Controlled) (w : World) (turns : List Turn) : Prop
  | going (hb : w.binding? t.pinned.binding = some ⟨some c, true⟩) (hended : t.endedIn w = false)
    (hturns : ∀ x ∈ turns, x.Ran u c)
  | settled (hc : w.holds? t.pinned.binding = none) {early late : List Turn} {last : Turn}
    (hturns : turns = early ++ last :: late) (hearly : ∀ x ∈ early, x.Ran u c)
    (hlast : last.Ended c) (hlate : ∀ x ∈ late, x.Late u)

end

section

variable {u : Client} {c : Connection} {t : Controlled} {w v : World} {turns : List Turn}

theorem Demand.on_done {x : Action Taped Unit} {a : Except Error Unit} (h : x.on w = (a, v)) :
    (do
      x
      return Answer.done : Action Taped Answer).on w = (a.map fun _ => .done, v) := by
  rw [Action.on_bind, h]
  cases a <;> rfl

namespace Stage

theorem of_on {db : Database Taped} {x : Demand} {a : Except Error Answer} {calls : List Call}
    (hon : (x.perform t db).on w = (a, v)) (hcalls : v.calls = w.calls ++ calls)
    (h : Stage u c t v (turns ++ [⟨x, calls, a⟩])) :
    Stage u c t ((x.perform t db).on w).2 (turns ++ [Desk.turn t db w x]) := by
  rwa [Desk.turn, hon, hcalls, List.drop_left]

/-- The last turn was the end of the transaction. -/
theorem ended {last : Turn} (howned : t.pinned.owned = true) {b : Binding}
    (hb : w.binding? t.pinned.binding = some b) (hturns : ∀ x ∈ turns, x.Ran u c)
    (hlast : last.Ended c) : Stage u c t (w.left t.pinned c) (turns ++ [last]) := by
  refine .settled ?_ rfl hturns hlast (List.forall_mem_nil _)
  rw [World.left, howned, if_pos rfl]
  exact World.holds?_of_binding? (World.binding?_put hb _)

theorem late {early late : List Turn} {last : Turn} (hearly : ∀ x ∈ early, x.Ran u c)
    (hlast : last.Ended c) (hlate : ∀ x ∈ late, x.Late u)
    (hc : w.holds? t.pinned.binding = none) {x : Turn} (hx : x.Late u) :
    Stage u c t w (early ++ last :: late ++ [x]) := by
  refine .settled hc (List.append_assoc ..) hearly hlast ?_
  simpa [or_imp, forall_and] using ⟨hlate, hx⟩

theorem inOrder (h : Stage u c t w turns) : Orderly u c turns := by
  cases h with
  | going _ _ hturns => exact .inl hturns
  | settled _ hturns hearly hlast hlate => exact .inr ⟨_, _, _, hturns, hearly, hlast, hlate⟩

variable (howned : t.pinned.owned = true)
include howned

/-- Requests are answered while the transaction goes on, and whoever ends it gives its connection
back. -/
theorem take_going (hb : w.binding? t.pinned.binding = some ⟨some c, true⟩)
    (hended : t.endedIn w = false) (hturns : ∀ x ∈ turns, x.Ran u c) (x : Demand) :
    let db := u.handle (.transaction t.pinned.binding)
    Stage u c t ((x.perform t db).on w).2 (turns ++ [Desk.turn t db w x]) := by
  intro db
  have hgoing : ∀ {x : Turn}, x.Ran u c → ∀ y ∈ turns ++ [x], y.Ran u c := fun hx => by
    simpa [or_imp, forall_and] using ⟨hturns, hx⟩
  have hleft : ∀ {w : World} (x : Call),
      ((w.say [x]).left t.pinned c).calls = w.calls ++ [x, .release c] := fun x => by
    simp [World.left, howned]
  cases x with
  | request r =>
    obtain hr | ⟨e, he⟩ := r.compiles_or_unsent u
    · obtain ⟨x, a, hsends, hon⟩ := r.on_perform u (World.holds?_of_binding? hb) hr
      exact .of_on hon rfl (.going hb hended (hgoing (.sent hsends)))
    · exact .of_on (r.on_perform_unsent u he _ w) (List.append_nil _).symm
        (.going hb hended (hgoing (.unsent he)))
  | commit =>
    have hon := Demand.on_done (Controlled.on_finish u (.transaction t.pinned.binding) hended hb
      rfl true)
    exact .of_on hon (hleft (w := w.setEnded t.number) _)
      (.ended howned (w := (w.setEnded t.number).say _) hb hturns (.commit _))
  | rollback =>
    have hon := Demand.on_done (Controlled.on_finish u (.transaction t.pinned.binding) hended hb
      rfl false)
    exact .of_on hon (hleft (w := w.setEnded t.number) _)
      (.ended howned (w := (w.setEnded t.number).say _) hb hturns (.rollback _))
  | drop =>
    have hdrop := Controlled.on_drop u (t := t) (.transaction t.pinned.binding) w
    rw [howned, if_pos rfl, Database.on_abandon_inTransaction u _ hb] at hdrop
    refine .of_on (Demand.on_done hdrop) rfl ?_
    refine .settled ?_ rfl hturns (.drop _) (List.forall_mem_nil _)
    exact World.holds?_of_binding? (World.binding?_put hb _)

/-- Nothing is sent after the end of the transaction. -/
theorem take_settled (hc : w.holds? t.pinned.binding = none)
    (hlate : ∀ {v : World} {x : Turn}, v.holds? t.pinned.binding = none → x.Late u →
      Stage u c t v (turns ++ [x])) (x : Demand) :
    let db := u.handle (.transaction t.pinned.binding)
    Stage u c t ((x.perform t db).on w).2 (turns ++ [Desk.turn t db w x]) := by
  intro db
  have hsame := (List.append_nil w.calls).symm
  have hfinish : ∀ commit, ∃ e v, (t.finish db commit).on w = (.error (.transaction e), v) ∧
      v.calls = w.calls ∧ v.holds? t.pinned.binding = none := fun commit => by
    cases hended : t.endedIn w with
    | true => exact ⟨_, w, Controlled.on_finish_ended u _ hended commit, rfl, hc⟩
    | false => exact ⟨_, _, Controlled.on_finish_none u _ hended hc commit, rfl, hc⟩
  cases x with
  | request r =>
    obtain hr | ⟨e, he⟩ := r.compiles_or_unsent u
    · exact .of_on (r.on_perform_none u hc hr) hsame (hlate hc (.request hr))
    · exact .of_on (r.on_perform_unsent u he _ w) hsame (hlate hc (.unsent he))
  | commit =>
    obtain ⟨e, v, hon, hcalls, hv⟩ := hfinish true
    exact .of_on (Demand.on_done hon) (hcalls.trans hsame) (hlate hv (.commit e))
  | rollback =>
    obtain ⟨e, v, hon, hcalls, hv⟩ := hfinish false
    exact .of_on (Demand.on_done hon) (hcalls.trans hsame) (hlate hv (.rollback e))
  | drop =>
    have hdrop := Controlled.on_drop u (t := t) (.transaction t.pinned.binding) w
    rw [howned, if_pos rfl, Database.on_abandon_none u _ hc] at hdrop
    exact .of_on (Demand.on_done hdrop) hsame (hlate hc .drop)

theorem take (h : Stage u c t w turns) (x : Demand) :
    let db := u.handle (.transaction t.pinned.binding)
    Stage u c t ((x.perform t db).on w).2 (turns ++ [Desk.turn t db w x]) := by
  cases h with
  | going hb hended hturns => exact take_going howned hb hended hturns x
  | settled hc hturns hearly hlast hlate =>
    subst hturns
    exact take_settled howned hc (fun hv hx => late hearly hlast hlate hv hx) x

end Stage

end

namespace Desk

/-- All turns, one that is under way included. -/
def all (d : Desk) : List Turn := d.turns ++ (d.current.map Visit.turn).toList

/-- What the driver has yet to see of the turn that is under way. -/
def rest (d : Desk) : List Event := (d.current.map Visit.rest).getD []

/-- What the turns leave behind. -/
def next (d : Desk) : World := (d.current.map Visit.world).getD d.world

/-- What holds at every desk. -/
structure Sound (u : Client) (c : Connection) (t : Controlled) (d : Desk) : Prop where
  stage : Stage u c t d.next d.all
  seen : d.seen ++ d.rest = d.all.flatMap Turn.events
  issued : d.issued = d.waiting + ↑(d.all.map Turn.demand)

variable {u : Client} {c : Connection} {t : Controlled} {d d' : Desk}

theorem all_idle (h : d.current = none) : d.all = d.turns := by
  rw [all, h]
  exact List.append_nil _

theorem Step.sound (howned : t.pinned.owned = true)
    (h : Step t (u.handle (.transaction t.pinned.binding)) d d') (hd : d.Sound u c t) :
    d'.Sound u c t := by
  cases h with
  | issue x =>
    refine ⟨hd.stage, hd.seen, ?_⟩
    show x ::ₘ d.issued = x ::ₘ d.waiting + _
    rw [hd.issued, Multiset.cons_add]
    rfl
  | @take d x hfree =>
    obtain ⟨hstage, hseen, hissued⟩ := hd
    simp only [next, all, rest, hfree, Option.map_none, Option.getD_none, Option.toList_none,
      List.append_nil] at hstage hseen hissued
    refine ⟨hstage.take howned x, ?_, ?_⟩
    · show d.seen ++ (turn t _ d.world x).events = (d.turns ++ [_]).flatMap Turn.events
      rw [List.flatMap_append, ← hseen, List.flatMap_singleton]
      rfl
    · show d.issued = d.waiting + ↑((d.turns ++ [turn t _ d.world x]).map Turn.demand)
      rw [hissued, List.map_append, ← Multiset.coe_add, ← Multiset.add_assoc, Multiset.cons_add,
        ← Multiset.singleton_add, Multiset.add_comm]
      rfl
  | @see _ e v rest h hrest =>
    obtain ⟨hstage, hseen, hissued⟩ := hd
    simp only [next, all, Desk.rest, h, Option.map_some, Option.getD_some, hrest]
      at hstage hseen hissued
    refine ⟨hstage, ?_, hissued⟩
    show d.seen ++ [e] ++ rest = (d.turns ++ [v.turn]).flatMap Turn.events
    rw [List.append_assoc]
    exact hseen
  | @yield _ v h hrest =>
    obtain ⟨hstage, hseen, hissued⟩ := hd
    simp only [next, all, Desk.rest, h, Option.map_some, Option.getD_some, Option.toList_some,
      hrest] at hstage hseen hissued
    refine ⟨?_, ?_, ?_⟩
    all_goals rw [all_idle rfl]
    · exact hstage
    · exact hseen
    · exact hissued

theorem Steps.sound (howned : t.pinned.owned = true)
    (h : Steps t (u.handle (.transaction t.pinned.binding)) d d') (hd : d.Sound u c t) :
    d'.Sound u c t := by
  induction h with
  | refl => exact hd
  | tail _ hstep ih => exact hstep.sound howned ih

end Desk

/-- A transaction begun by hand on the pool has a connection for itself. -/
theorem Database.on_start_pool (u : Client) {w begun : World} {s : TransactionSettings}
    {t : Controlled} {db : Database Taped}
    (h : ((u.handle .pool).startTransaction s).on w = (.ok (t, db), begun)) :
    let c : Connection := ⟨acquired w.calls⟩
    ∃ opening, Opens w.shared.initialized opening (.ok c) ∧
      begun.calls = w.calls ++ opening ++ [.begin c s (.ok ())] ∧ t.pinned.owned = true ∧
      db = u.handle (.transaction t.pinned.binding) ∧ Stage u c t begun [] := by
  obtain ⟨opening, a, initialized, hopens, hacquire, hid⟩ := on_acquire u w
  rw [startTransaction, Action.on_bind_ok (on_requireDriver u w _)] at h
  cases a with
  | error e =>
    rw [Action.on_bind_error (on_begin_pool_error u s hacquire)] at h
    cases h
  | ok c =>
    obtain rfl := hid c rfl
    have hbegin := on_begin_pool u s hacquire
    split at hbegin
    · rw [Action.on_bind_error hbegin] at h
      cases h
    · rw [Action.on_bind_ok hbegin] at h
      cases h
      refine ⟨opening, hopens, rfl, rfl, rfl, .going ?_ ?_ (List.forall_mem_nil _)⟩
      · exact World.binding?_bind_length
      · show (w.shared.ended ++ [false])[w.shared.ended.length]?.getD true = false
        simp

namespace Desk

/-- A transaction begun by hand on the pool, used by any number of tasks in any order: of the calls
that they make the driver sees one after another, each answered before the next is sent.  First
come statements and savepoints, each of them once; then one task ends the transaction, and the
connection is given back; all others come too late, and nothing is sent for them.  And whatever was
asked for waits or has had its turn, once.  A tree that does not compile is no statement at any
time: it fails on its own account, with nothing sent. -/
theorem orderly (u : Client) {w begun : World} {s : TransactionSettings} {t : Controlled}
    {db : Database Taped}
    (h : ((u.handle .pool).startTransaction s).on w = (.ok (t, db), begun)) :
    let c : Connection := ⟨acquired w.calls⟩
    ∃ opening, Opens w.shared.initialized opening (.ok c) ∧
      begun.calls = w.calls ++ opening ++ [.begin c s (.ok ())] ∧
      ∀ d, Steps t db { world := begun } d →
        Orderly u c d.all ∧ d.seen ++ d.rest = d.all.flatMap Turn.events ∧
          d.issued = d.waiting + ↑(d.all.map Turn.demand) := by
  obtain ⟨opening, hopens, hcalls, howned, rfl, hstage⟩ := Database.on_start_pool u h
  refine ⟨opening, hopens, hcalls, fun d hd => ?_⟩
  have hsound := hd.sound howned ⟨hstage, rfl, rfl⟩
  exact ⟨hsound.stage.inOrder, hsound.seen, hsound.issued⟩

/-- A savepoint that comes after the commit is refused. -/
theorem orderly_granting :
    let t : Controlled := ⟨⟨0, true⟩, 0⟩
    let begun := World.new.after .granting (.start .pool {})
    let turns : List Turn := [⟨.commit, [.commit ⟨0⟩ (.ok ()), .release ⟨0⟩], .ok .done⟩,
      ⟨.request (.savepoint "s"), [], .error (.transaction .finished)⟩]
    ∃ d, Steps t (Client.granting.handle (.transaction 0)) { world := begun } d ∧ d.all = turns ∧
      Orderly .granting ⟨0⟩ turns := by
  intro t begun turns
  let db := Client.granting.handle (.transaction 0)
  let savepoint : Demand := .request (.savepoint "s")
  let asked : Desk :=
    { world := begun, issued := .commit ::ₘ savepoint ::ₘ 0, waiting := savepoint ::ₘ 0 }
  let committed := visit t db begun .commit
  let late := visit t db committed.world savepoint
  let after : Desk :=
    { asked with
      world := committed.world
      waiting := 0
      seen := committed.turn.events
      turns := [committed.turn] }
  have hcommit : Steps t db { world := begun } { after with waiting := savepoint ::ₘ 0 } := by
    refine .head (.issue savepoint) (.head (.issue .commit) (.head (.take (d := asked) rfl) ?_))
    refine .head (.see rfl rfl) (.head (.see rfl rfl) ?_)
    refine .head (.see rfl rfl) (.head (.see rfl rfl) ?_)
    exact .single (.yield (v := { committed with rest := [] }) rfl rfl)
  have hlate : Steps t db { after with waiting := savepoint ::ₘ 0 }
      { after with world := late.world, turns := [committed.turn, late.turn] } :=
    .head (.take (d := after) rfl) (.single (.yield rfl rfl))
  have hstart : ((Client.granting.handle .pool).startTransaction {}).on .new =
      (.ok (t, db), begun) := rfl
  obtain ⟨opening, -, -, h⟩ := orderly .granting hstart
  exact ⟨_, hcommit.trans hlate, rfl, (h _ (hcommit.trans hlate)).1⟩

end Desk

end SqlTree
