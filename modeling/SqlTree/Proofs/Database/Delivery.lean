import SqlTree.Database.Stream
import Mathlib.Data.List.Infix
import Mathlib.Data.Prod.Lex
import Mathlib.Logic.Relation
import Mathlib.Order.WellFounded

/-!
# Delivery of streamed rows

The task behind a stream, act by act, beside a reader who takes rows or goes at any time
(`Delivery.Step`).  At every moment what was taken, what has arrived and what is still ahead make up
the rows that are owed (`Delivery.Sound`), and every run comes to an end
(`Delivery.wellFounded_step`).
-/

namespace SqlTree

/-- What a database will answer to a stream: no connection, or chunks and errors. -/
abbrev Supply := Except Error (List (Except Error QueryResult))

namespace Stream

variable (plugins : List Plugin)

/-- The rows of the chunks after the plugins, up to the first error, and then that error. -/
def due : List (Except Error QueryResult) → List (Except Error Row)
  | [] => []
  | k :: ks =>
    match received plugins k with
    | .ok rs => rs.map .ok ++ due ks
    | .error e => [.error e]

/-- All that a reader can get. -/
def owed : Supply → List (Except Error Row)
  | .ok ks => due plugins ks
  | .error e => [.error e]

/-- The rows of an item, and of the chunks behind it unless it is an error. -/
def dueFrom (item : Except Error (List Row)) (ks : List (Except Error QueryResult)) :
    List (Except Error Row) :=
  rows item ++ if isOk item then due plugins ks else []

theorem due_cons (k : Except Error QueryResult) (ks : List (Except Error QueryResult)) :
    due plugins (k :: ks) = dueFrom plugins (received plugins k) ks := by
  rw [due, dueFrom]
  cases received plugins k <;> simp [rows, isOk]

variable {plugins}

/-- An error is the last thing that is due. -/
theorem due_error_last {ks : List (Except Error QueryResult)} (before : List (Except Error Row))
    {after : List (Except Error Row)} {e : Error}
    (h : due plugins ks = before ++ .error e :: after) : after = [] := by
  induction ks generalizing before with
  | nil => simp [due] at h
  | cons k ks ih =>
    rw [due] at h
    cases hk : received plugins k with
    | error e' =>
      rw [hk] at h
      cases before with
      | nil => exact (List.cons.inj h).2.symm
      | cons r before => simp at h
    | ok rs =>
      rw [hk] at h
      obtain ⟨bs, -, hks⟩ | ⟨bs, hrs, hbs⟩ := List.append_eq_append_iff.mp h
      · exact ih _ hks
      · cases bs with
        | nil => exact ih [] hbs.symm
        | cons b bs =>
          -- the rows of a chunk are no errors
          obtain ⟨rfl, -⟩ := List.cons.inj hbs
          have hmem : (.error e : Except Error Row) ∈ rs.map Except.ok := by
            rw [hrs]
            simp
          simp at hmem

theorem owed_error_last {supply : Supply} {before after : List (Except Error Row)} {e : Error}
    (h : owed plugins supply = before ++ .error e :: after) : after = [] := by
  cases supply with
  | ok ks => exact due_error_last before h
  | error e' =>
    cases before with
    | nil => exact (List.cons.inj h).2.symm
    | cons r before => simp [owed] at h

end Stream

open SqlTree.Stream (rows isOk received due owed dueFrom)

/-- Where the task of a stream stands. -/
inductive Stand where
  /-- It waits for a connection. -/
  | asking
  /-- It got none, and has an error to send. -/
  | refused (e : Error)
  | fetching (chunks : List (Except Error QueryResult))
  /-- Some plugins have yet to see the chunk that arrived. -/
  | changing (left : List Plugin) (r : QueryResult) (chunks : List (Except Error QueryResult))
  | sending (item : Except Error (List Row)) (chunks : List (Except Error QueryResult))
  /-- It has nothing left to do but to give back its connection. -/
  | leaving
  | gone

/-- What happens to the connection of a task. -/
inductive Use where
  | taken
  | used
  | returned
  deriving DecidableEq, Repr

/-- A stream between its task and its reader. -/
structure Delivery where
  stand : Stand := .asking
  uses : List Use := []
  channel : Option (Except Error (List Row)) := none
  /-- Rows received but not taken; `none` once the reader is gone. -/
  reader : Option (List (Except Error Row)) := some []
  delivered : List (Except Error Row) := []

namespace Delivery

/-- One step of the task or of the reader. -/
inductive Step (plugins : List Plugin) (supply : Supply) : Delivery → Delivery → Prop
  /-- The task gets a connection, and sends its statement. -/
  | acquire {d : Delivery} {ks : List (Except Error QueryResult)} (hsupply : supply = .ok ks)
    (h : d.stand = .asking) :
    Step plugins supply d { d with stand := .fetching ks, uses := d.uses ++ [.taken, .used] }
  | refuse {d : Delivery} {e : Error} (hsupply : supply = .error e) (h : d.stand = .asking) :
    Step plugins supply d { d with stand := .refused e }
  /-- A chunk arrives. -/
  | fetch {d : Delivery} {r : QueryResult} {ks : List (Except Error QueryResult)}
    (h : d.stand = .fetching (.ok r :: ks)) :
    Step plugins supply d { d with stand := .changing plugins r ks, uses := d.uses ++ [.used] }
  /-- An error arrives in the place of a chunk. -/
  | fail {d : Delivery} {e : Error} {ks : List (Except Error QueryResult)}
    (h : d.stand = .fetching (.error e :: ks)) :
    Step plugins supply d { d with stand := .sending (.error e) ks, uses := d.uses ++ [.used] }
  /-- There are no more chunks. -/
  | finish {d : Delivery} (h : d.stand = .fetching []) :
    Step plugins supply d { d with stand := .leaving, uses := d.uses ++ [.used] }
  /-- A plugin sees the chunk. -/
  | change {d : Delivery} {p : Plugin} {left : List Plugin} {r r' : QueryResult}
    {ks : List (Except Error QueryResult)} (h : d.stand = .changing (p :: left) r ks)
    (hp : p.inbound r = .ok r') : Step plugins supply d { d with stand := .changing left r' ks }
  /-- A plugin fails. -/
  | spoil {d : Delivery} {p : Plugin} {left : List Plugin} {r : QueryResult} {e : Error}
    {ks : List (Except Error QueryResult)} (h : d.stand = .changing (p :: left) r ks)
    (hp : p.inbound r = .error e) : Step plugins supply d { d with stand := .sending (.error e) ks }
  /-- All plugins have seen the chunk. -/
  | changed {d : Delivery} {r : QueryResult} {ks : List (Except Error QueryResult)}
    (h : d.stand = .changing [] r ks) :
    Step plugins supply d { d with stand := .sending (.ok r.rows) ks }
  /-- There is room in the channel. -/
  | send {d : Delivery} {item : Except Error (List Row)} {ks : List (Except Error QueryResult)}
    (h : d.stand = .sending item ks) (hreader : d.reader.isSome) (hroom : d.channel = none) :
    Step plugins supply d
      { d with stand := if isOk item then .fetching ks else .leaving, channel := some item }
  | sendRefusal {d : Delivery} {e : Error} (h : d.stand = .refused e) (hreader : d.reader.isSome)
    (hroom : d.channel = none) :
    Step plugins supply d { d with stand := .gone, channel := some (.error e) }
  /-- The task finds the reader gone. -/
  | notice {d : Delivery} {ks : List (Except Error QueryResult)} (hreader : d.reader = none)
    (h : d.stand = .fetching ks ∨ ∃ item, d.stand = .sending item ks) :
    Step plugins supply d { d with stand := .leaving }
  | noticeRefused {d : Delivery} {e : Error} (hreader : d.reader = none)
    (h : d.stand = .refused e) : Step plugins supply d { d with stand := .gone }
  | giveBack {d : Delivery} (h : d.stand = .leaving) :
    Step plugins supply d { d with stand := .gone, uses := d.uses ++ [.returned] }
  /-- The reader gets the rows of an item. -/
  | receive {d : Delivery} {item : Except Error (List Row)} (h : d.channel = some item)
    (hreader : d.reader = some []) :
    Step plugins supply d { d with channel := none, reader := some (rows item) }
  /-- The reader takes a row. -/
  | take {d : Delivery} {r : Except Error Row} {rs : List (Except Error Row)}
    (hreader : d.reader = some (r :: rs)) :
    Step plugins supply d { d with reader := some rs, delivered := d.delivered ++ [r] }
  /-- The reader goes, with all it has not taken. -/
  | drop {d : Delivery} (hreader : d.reader.isSome) :
    Step plugins supply d { d with channel := none, reader := none }

abbrev Steps (plugins : List Plugin) (supply : Supply) : Delivery → Delivery → Prop :=
  Relation.ReflTransGen (Step plugins supply)

def Reachable (plugins : List Plugin) (supply : Supply) (d : Delivery) : Prop :=
  Steps plugins supply {} d

end Delivery

/-- The rows that a task has yet to send. -/
def Stand.ahead (plugins : List Plugin) (supply : Supply) : Stand → List (Except Error Row)
  | .asking => owed plugins supply
  | .refused e => [.error e]
  | .fetching ks => due plugins ks
  | .changing left r ks => dueFrom plugins ((Plugin.receiveAll left r).map QueryResult.rows) ks
  | .sending item ks => dueFrom plugins item ks
  | .leaving => []
  | .gone => []

/-- A task with a connection has taken it, and used it any number of times. -/
def Holding (supply : Supply) (uses : List Use) : Prop :=
  (∃ ks, supply = .ok ks) ∧ ∃ n, uses = .taken :: List.replicate n .used

/-- A task that got a connection has given it back once, after all uses; one that got none has
nothing to give back. -/
def GivenBack (supply : Supply) (uses : List Use) : Prop :=
  match supply with
  | .ok _ => ∃ n, uses = .taken :: List.replicate n .used ++ [.returned]
  | .error _ => uses = []

/-- What a task has done with its connection by then. -/
def Stand.Used (supply : Supply) (uses : List Use) : Stand → Prop
  | .asking => uses = []
  | .refused e => supply = .error e ∧ uses = []
  | .gone => GivenBack supply uses
  | _ => Holding supply uses

/-- The task has a connection, and uses it once more. -/
theorem Holding.again {supply : Supply} {uses : List Use} (h : Holding supply uses) :
    Holding supply (uses ++ [.used]) := by
  obtain ⟨hsupply, n, rfl⟩ := h
  exact ⟨hsupply, n + 1, by rw [List.cons_append, ← List.replicate_succ']⟩

theorem Holding.givenBack {supply : Supply} {uses : List Use} (h : Holding supply uses) :
    GivenBack supply (uses ++ [.returned]) := by
  obtain ⟨⟨ks, rfl⟩, n, rfl⟩ := h
  exact ⟨n, rfl⟩

namespace Delivery

/-- What has arrived at the reader's side and was not taken. -/
def arrived (d : Delivery) : List (Except Error Row) :=
  d.reader.getD [] ++ (d.channel.map rows).getD []

/-- What holds at every moment. -/
structure Sound (plugins : List Plugin) (supply : Supply) (d : Delivery) : Prop where
  used : d.stand.Used supply d.uses
  delivered : d.delivered <+: owed plugins supply
  /-- Nothing is lost, doubled or reordered on the way. -/
  complete : d.reader.isSome →
    d.delivered ++ (d.arrived ++ d.stand.ahead plugins supply) = owed plugins supply

section

variable {plugins : List Plugin} {supply : Supply} {d d' : Delivery}

theorem Sound.of_complete (hused : d.stand.Used supply d.uses)
    (h : d.delivered ++ (d.arrived ++ d.stand.ahead plugins supply) = owed plugins supply) :
    d.Sound plugins supply :=
  ⟨hused, ⟨_, h⟩, fun _ => h⟩

/-- The task goes on, and has as much to send as before. -/
theorem Sound.stand (h : d.Sound plugins supply) {stand : Stand} {uses : List Use}
    (hused : stand.Used supply uses)
    (hahead : stand.ahead plugins supply = d.stand.ahead plugins supply) :
    ({ d with stand, uses } : Delivery).Sound plugins supply :=
  ⟨hused, h.delivered, fun hreader => by
    show d.delivered ++ (d.arrived ++ stand.ahead plugins supply) = _
    rw [hahead]
    exact h.complete hreader⟩

theorem Sound.used_of (h : d.Sound plugins supply) {stand : Stand} (hstand : d.stand = stand) :
    stand.Used supply d.uses := hstand ▸ h.used

/-- An item that is sent is in the channel, and no longer ahead. -/
theorem ahead_sent (item : Except Error (List Row)) (ks : List (Except Error QueryResult)) :
    rows item ++ (if isOk item then Stand.fetching ks else .leaving).ahead plugins supply =
      (Stand.sending item ks).ahead plugins supply := by
  cases item <;> simp [isOk, Stand.ahead, dueFrom]

theorem Step.sound (h : Step plugins supply d d') (hd : d.Sound plugins supply) :
    d'.Sound plugins supply := by
  cases h with
  | @acquire ks hsupply h =>
    have hnone : d.uses = [] := hd.used_of h
    refine hd.stand ⟨⟨ks, hsupply⟩, 1, by rw [hnone]; rfl⟩ ?_
    rw [h, hsupply]
    rfl
  | refuse hsupply h =>
    have hnone : d.uses = [] := hd.used_of h
    refine hd.stand ⟨hsupply, hnone⟩ ?_
    rw [h, hsupply]
    rfl
  | @fetch r ks h =>
    have hold : Holding supply d.uses := hd.used_of h
    refine hd.stand hold.again ?_
    rw [h]
    exact (Stream.due_cons plugins (.ok r) ks).symm
  | @fail e ks h =>
    have hold : Holding supply d.uses := hd.used_of h
    refine hd.stand hold.again ?_
    rw [h]
    exact (Stream.due_cons plugins (.error e) ks).symm
  | finish h =>
    have hold : Holding supply d.uses := hd.used_of h
    refine hd.stand hold.again ?_
    rw [h]
    rfl
  | change h hp =>
    have hold : Holding supply d.uses := hd.used_of h
    refine hd.stand hold ?_
    rw [h]
    simp only [Stand.ahead, Plugin.receiveAll, hp]
    rfl
  | spoil h hp =>
    have hold : Holding supply d.uses := hd.used_of h
    refine hd.stand hold ?_
    rw [h]
    simp only [Stand.ahead, Plugin.receiveAll, hp]
    rfl
  | changed h =>
    have hold : Holding supply d.uses := hd.used_of h
    refine hd.stand hold ?_
    rw [h]
    rfl
  | @send item ks h hreader hroom =>
    have hold : Holding supply d.uses := hd.used_of h
    have hc := hd.complete hreader
    refine .of_complete (by cases item <;> exact hold) ?_
    rw [h, ← ahead_sent] at hc
    simpa [arrived, hroom] using hc
  | @sendRefusal e h hreader hroom =>
    have hnone : supply = .error e ∧ d.uses = [] := hd.used_of h
    have hc := hd.complete hreader
    refine .of_complete (by rw [hnone.1]; exact hnone.2) ?_
    rw [h] at hc
    simpa [arrived, hroom, Stand.ahead, rows] using hc
  | notice hreader h =>
    have hold : Holding supply d.uses := by
      obtain h | ⟨item, h⟩ := h
      · exact hd.used_of h
      · exact hd.used_of h
    exact ⟨hold, hd.delivered, fun hsome => by simp [hreader] at hsome⟩
  | @noticeRefused e hreader h =>
    have hnone : supply = .error e ∧ d.uses = [] := hd.used_of h
    exact ⟨by rw [hnone.1]; exact hnone.2, hd.delivered, fun hsome => by simp [hreader] at hsome⟩
  | giveBack h =>
    have hold : Holding supply d.uses := hd.used_of h
    refine hd.stand hold.givenBack ?_
    rw [h]
    rfl
  | receive h hreader =>
    have hc := hd.complete (by simp [hreader])
    refine .of_complete hd.used ?_
    simpa [arrived, hreader, h] using hc
  | take hreader =>
    have hc := hd.complete (by simp [hreader])
    refine .of_complete hd.used ?_
    simpa [arrived, hreader] using hc
  | drop hreader => exact ⟨hd.used, hd.delivered, fun hsome => by simp at hsome⟩

theorem sound_initially : ({} : Delivery).Sound plugins supply :=
  .of_complete rfl rfl

theorem Reachable.sound (h : Reachable plugins supply d) : d.Sound plugins supply := by
  induction h with
  | refl => exact sound_initially
  | tail _ hstep ih => exact hstep.sound ih

end

end Delivery

/-! ### Every run ends -/

/-- A bound on the steps that the task has yet to take. -/
def Stand.work (plugins : List Plugin) (supply : Supply) : Stand → Nat
  | .asking =>
    match supply with
    | .ok ks => ks.length * (plugins.length + 3) + 3
    | .error _ => 2
  | .refused _ => 1
  | .fetching ks => ks.length * (plugins.length + 3) + 2
  | .changing left _ ks => ks.length * (plugins.length + 3) + left.length + 4
  | .sending _ ks => ks.length * (plugins.length + 3) + 3
  | .leaving => 1
  | .gone => 0

namespace Delivery

section

variable {plugins : List Plugin} {supply : Supply} {d d' : Delivery}

/-- The work of the task, and then what the reader can do without it. -/
def weight (plugins : List Plugin) (supply : Supply) (d : Delivery) : Nat × Nat × Nat × Nat :=
  (d.stand.work plugins supply, d.reader.isSome.toNat, d.channel.isSome.toNat,
    (d.reader.getD []).length)

abbrev Lighter : Nat × Nat × Nat × Nat → Nat × Nat × Nat × Nat → Prop :=
  Prod.Lex (· < ·) (Prod.Lex (· < ·) (Prod.Lex (· < ·) (· < ·)))

theorem Step.lighter (h : Step plugins supply d d') :
    Lighter (d'.weight plugins supply) (d.weight plugins supply) := by
  cases h with
  | acquire hsupply h =>
    refine .left _ _ ?_
    rw [h, hsupply]
    exact Nat.lt_succ_self _
  | refuse hsupply h =>
    refine .left _ _ ?_
    rw [h, hsupply]
    exact Nat.lt_succ_self _
  | fetch h | fail h | finish h | change h | spoil h | changed h | sendRefusal h | giveBack h =>
    refine .left _ _ ?_
    rw [h]
    simp only [Stand.work, List.length_cons, List.length_nil, Nat.succ_mul]
    omega
  | @send item ks h =>
    refine .left _ _ ?_
    rw [h]
    cases item <;> simp [isOk, Stand.work]
  | notice _ h =>
    refine .left _ _ ?_
    obtain h | ⟨item, h⟩ := h <;> rw [h] <;> simp only [Stand.work] <;> omega
  | noticeRefused _ h =>
    refine .left _ _ ?_
    rw [h]
    exact Nat.lt_succ_self _
  | receive h hreader =>
    have hsome : d.reader.isSome.toNat = 1 := by rw [hreader]; rfl
    simp only [weight, h, hsome]
    exact .right _ (.right _ (.left _ _ Nat.zero_lt_one))
  | take hreader =>
    simp only [weight, hreader]
    exact .right _ (.right _ (.right _ (Nat.lt_succ_self _)))
  | drop hreader =>
    simp only [weight, hreader]
    exact .right _ (.left _ _ Nat.zero_lt_one)

theorem wellFounded_step (plugins : List Plugin) (supply : Supply) :
    WellFounded fun t s => Step plugins supply s t := by
  have hlex : WellFounded Lighter :=
    WellFounded.prod_lex Nat.lt_wfRel.wf
      (WellFounded.prod_lex Nat.lt_wfRel.wf (WellFounded.prod_lex Nat.lt_wfRel.wf Nat.lt_wfRel.wf))
  exact Subrelation.wf (fun h => h.lighter) (InvImage.wf (weight plugins supply) hlex)

/-- Nothing can happen any longer, except that the reader goes. -/
def Settled (plugins : List Plugin) (supply : Supply) (d : Delivery) : Prop :=
  ∀ t, Step plugins supply d t → d.reader.isSome ∧ t.reader = none

/-- Only the reader that goes changes whether there is one. -/
theorem Settled.no_step {t : Delivery} (h : d.Settled plugins supply)
    (ht : Step plugins supply d t) (hkept : t.reader.isSome = d.reader.isSome) : False := by
  obtain ⟨hsome, hnone⟩ := h t ht
  rw [← hkept, hnone] at hsome
  exact Bool.noConfusion hsome

/-- A reader that is there has taken all that has arrived. -/
theorem Settled.arrived (h : d.Settled plugins supply) (hreader : d.reader.isSome) :
    d.reader = some [] ∧ d.channel = none := by
  match hr : d.reader with
  | none => simp [hr] at hreader
  | some (r :: rs) => exact (h.no_step (.take hr) (by rw [hr]; rfl)).elim
  | some [] =>
    match hc : d.channel with
    | none => exact ⟨rfl, rfl⟩
    | some item => exact (h.no_step (.receive hc hr) (by rw [hr]; rfl)).elim

theorem Settled.gone (h : d.Settled plugins supply) : d.stand = .gone := by
  match hstand : d.stand with
  | .asking =>
    match hsupply : supply with
    | .ok ks => exact (h.no_step (.acquire rfl hstand) rfl).elim
    | .error e => exact (h.no_step (.refuse rfl hstand) rfl).elim
  | .refused e =>
    match hr : d.reader with
    | none => exact (h.no_step (.noticeRefused hr hstand) rfl).elim
    | some _ =>
      have hsome : d.reader.isSome := by rw [hr]; rfl
      exact (h.no_step (.sendRefusal hstand hsome (h.arrived hsome).2) rfl).elim
  | .fetching [] => exact (h.no_step (.finish hstand) rfl).elim
  | .fetching (.ok r :: ks) => exact (h.no_step (.fetch hstand) rfl).elim
  | .fetching (.error e :: ks) => exact (h.no_step (.fail hstand) rfl).elim
  | .changing [] r ks => exact (h.no_step (.changed hstand) rfl).elim
  | .changing (p :: left) r ks =>
    match hp : p.inbound r with
    | .ok r' => exact (h.no_step (.change hstand hp) rfl).elim
    | .error e => exact (h.no_step (.spoil hstand hp) rfl).elim
  | .sending item ks =>
    match hr : d.reader with
    | none => exact (h.no_step (.notice hr (.inr ⟨item, hstand⟩)) rfl).elim
    | some _ =>
      have hsome : d.reader.isSome := by rw [hr]; rfl
      exact (h.no_step (.send hstand hsome (h.arrived hsome).2) rfl).elim
  | .leaving => exact (h.no_step (.giveBack hstand) rfl).elim
  | .gone => rfl

/-- A reader that has stayed got everything when the task is gone and nothing is on its way. -/
theorem Sound.all_delivered (h : d.Sound plugins supply) (hreader : d.reader = some [])
    (hchannel : d.channel = none) (hgone : d.stand = .gone) :
    d.delivered = owed plugins supply := by
  have hc := h.complete (by simp [hreader])
  simpa [Delivery.arrived, hreader, hchannel, hgone, Stand.ahead] using hc

end

end Delivery

end SqlTree
