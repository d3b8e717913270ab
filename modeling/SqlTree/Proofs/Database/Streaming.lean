import SqlTree.Proofs.Database.Delivery

/-!
# Streams as deliveries

The operations of a stream are steps of a delivery.  In whatever order the task and the reader take
them, the reader gets the first of the rows that are owed to it, and all of them if it stays; and
the connection of the task is given back once, after its last use (`Delivery.delivers`).
-/

namespace SqlTree

open SqlTree.Stream (rows isOk received owed)

namespace Delivery

/-- A stand as the task of a stream. -/
inductive Shown : Stand → Fetch → Prop
  | refused (e : Error) : Shown (.refused e) (.refused e)
  | fetching (ks : List (Except Error QueryResult)) : Shown (.fetching ks) (.fetching ks)
  | sending (item : Except Error (List Row)) (ks : List (Except Error QueryResult)) :
    Shown (.sending item ks) (.sending item ks)
  | leaving : Shown .leaving .ended
  | gone : Shown .gone .ended

/-- A delivery at a moment when it is a given stream. -/
structure Shows (d : Delivery) (s : Stream) : Prop where
  stand : Shown d.stand s.task
  channel : d.channel = s.channel
  reader : d.reader = s.reader

section

variable {plugins : List Plugin} {supply : Supply} {d : Delivery} {s t : Stream}

/-- The plugins see a chunk one after another. -/
theorem steps_of_changing {ks : List (Except Error QueryResult)} (left : List Plugin)
    (r : QueryResult) (d : Delivery) (h : d.stand = .changing left r ks) :
    Steps plugins supply d
      { d with stand := .sending ((Plugin.receiveAll left r).map QueryResult.rows) ks } := by
  induction left generalizing r d with
  | nil => exact .single (.changed h)
  | cons p left ih =>
    cases hp : p.inbound r with
    | ok r' =>
      have hall : Plugin.receiveAll (p :: left) r = Plugin.receiveAll left r' := by
        simp only [Plugin.receiveAll, hp]
        rfl
      rw [hall]
      exact .head (.change h hp) (ih r' { d with stand := .changing left r' ks } rfl)
    | error e =>
      have hall : Plugin.receiveAll (p :: left) r = .error e := by
        simp only [Plugin.receiveAll, hp]
        rfl
      rw [hall]
      exact .single (.spoil h hp)

/-- A chunk is fetched and changed. -/
theorem steps_of_fetching (plugins : List Plugin) (supply : Supply) (k : Except Error QueryResult)
    (ks : List (Except Error QueryResult)) (d : Delivery) (h : d.stand = .fetching (k :: ks)) :
    ∃ uses, Steps plugins supply d { d with stand := .sending (received plugins k) ks, uses } := by
  cases k with
  | ok r => exact ⟨_, .head (.fetch h) (steps_of_changing plugins r _ rfl)⟩
  | error e => exact ⟨_, .single (.fail h)⟩

/-- The task of a stream takes its step in steps of a delivery. -/
theorem Shows.step (supply : Supply) (h : d.Shows s) (hstep : s.step? plugins = some t) :
    ∃ d', Steps plugins supply d d' ∧ d'.Shows t ∧ d'.delivered = d.delivered := by
  obtain ⟨stand, uses, channel, reader, delivered⟩ := d
  obtain ⟨task, channel', reader'⟩ := s
  obtain ⟨hstand, hchannel, hreader⟩ := h
  cases hchannel
  cases hreader
  cases hstand with
  | refused e =>
    cases reader <;> cases channel <;> simp [Stream.step?] at hstep <;> subst hstep
    · exact ⟨_, .single (.noticeRefused rfl rfl), ⟨.gone, rfl, rfl⟩, rfl⟩
    · exact ⟨_, .single (.noticeRefused rfl rfl), ⟨.gone, rfl, rfl⟩, rfl⟩
    · exact ⟨_, .single (.sendRefusal rfl rfl rfl), ⟨.gone, rfl, rfl⟩, rfl⟩
  | fetching ks =>
    cases ks with
    | nil =>
      simp [Stream.step?] at hstep
      subst hstep
      exact ⟨_, .single (.finish rfl), ⟨.leaving, rfl, rfl⟩, rfl⟩
    | cons k ks =>
      cases reader with
      | none =>
        simp [Stream.step?] at hstep
        subst hstep
        exact ⟨_, .single (.notice rfl (.inl rfl)), ⟨.leaving, rfl, rfl⟩, rfl⟩
      | some rs =>
        simp [Stream.step?] at hstep
        subst hstep
        obtain ⟨uses', hrun⟩ := steps_of_fetching plugins supply k ks
          ⟨.fetching (k :: ks), uses, channel, some rs, delivered⟩ rfl
        exact ⟨_, hrun, ⟨.sending _ ks, rfl, rfl⟩, rfl⟩
  | sending item ks =>
    cases reader <;> cases channel <;> simp [Stream.step?] at hstep <;> subst hstep
    · exact ⟨_, .single (.notice rfl (.inr ⟨item, rfl⟩)), ⟨.leaving, rfl, rfl⟩, rfl⟩
    · exact ⟨_, .single (.notice rfl (.inr ⟨item, rfl⟩)), ⟨.leaving, rfl, rfl⟩, rfl⟩
    · refine ⟨_, .single (.send rfl rfl rfl), ⟨?_, rfl, rfl⟩, rfl⟩
      cases item with
      | ok rs => exact .fetching ks
      | error e => exact .leaving
  | leaving | gone => simp [Stream.step?] at hstep

theorem Shows.receive (plugins : List Plugin) (supply : Supply) (h : d.Shows s) (hreceived : s.receive? = some t) :
    ∃ d', Step plugins supply d d' ∧ d'.Shows t ∧ d'.delivered = d.delivered := by
  obtain ⟨task, channel, reader⟩ := s
  match reader, channel with
  | some [], some item =>
    simp only [Stream.receive?, Option.some.injEq] at hreceived
    subst hreceived
    exact ⟨_, .receive h.channel h.reader, ⟨h.stand, rfl, rfl⟩, rfl⟩
  | none, _ | some (_ :: _), _ | some [], none => simp [Stream.receive?] at hreceived

theorem Shows.take (plugins : List Plugin) (supply : Supply) {r : Except Error Row} (h : d.Shows s) (htaken : s.take? = some (r, t)) :
    ∃ d', Step plugins supply d d' ∧ d'.Shows t ∧ d'.delivered = d.delivered ++ [r] := by
  obtain ⟨task, channel, reader⟩ := s
  match reader with
  | some (r' :: rs) =>
    simp only [Stream.take?, Option.some.injEq, Prod.mk.injEq] at htaken
    obtain ⟨rfl, rfl⟩ := htaken
    exact ⟨_, .take h.reader, ⟨h.stand, h.channel, rfl⟩, rfl⟩
  | none | some [] => simp [Stream.take?] at htaken

theorem Shows.close (plugins : List Plugin) (supply : Supply) (h : d.Shows s) (hreader : s.reader.isSome) :
    ∃ d', Step plugins supply d d' ∧ d'.Shows s.close ∧ d'.delivered = d.delivered :=
  ⟨_, .drop (h.reader ▸ hreader), ⟨h.stand, rfl, rfl⟩, rfl⟩

/-- Neither the task nor the reader of a stream can do anything, and the reader is there. -/
theorem Shows.quiet (h : d.Shows s) (hreader : s.reader.isSome) (htake : s.take? = none)
    (hreceive : s.receive? = none) (hstep : s.step? plugins = none) :
    d.reader = some [] ∧ d.channel = none ∧ (d.stand = .leaving ∨ d.stand = .gone) := by
  obtain ⟨stand, uses, channel, reader, delivered⟩ := d
  obtain ⟨task, channel', reader'⟩ := s
  obtain ⟨hstand, hchannel, hr⟩ := h
  cases hchannel
  cases hr
  match reader, channel with
  | none, _ => simp at hreader
  | some (_ :: _), _ => simp [Stream.take?] at htake
  | some [], some item => simp [Stream.receive?] at hreceive
  | some [], none =>
    refine ⟨rfl, rfl, ?_⟩
    cases hstand with
    | refused | sending => simp [Stream.step?] at hstep
    | fetching ks => cases ks <;> simp [Stream.step?] at hstep
    | leaving => exact .inl rfl
    | gone => exact .inr rfl

theorem reader_of_step? (h : s.step? plugins = some t) : t.reader = s.reader := by
  unfold Stream.step? at h
  split at h <;> simp at h <;> subst h <;> rfl

theorem reader_of_receive? (h : s.receive? = some t) : t.reader.isSome := by
  unfold Stream.receive? at h
  split at h <;> simp at h
  subst h
  rfl

theorem reader_of_take? {r : Except Error Row} (h : s.take? = some (r, t)) :
    t.reader.isSome := by
  unfold Stream.take? at h
  split at h <;> simp at h
  obtain ⟨-, rfl⟩ := h
  rfl

/-- Reading on is a run that ends when the reader has enough, or when there is no more. -/
theorem Shows.read (supply : Supply) (limit : Option Nat) (h : d.Shows s) (hreader : s.reader.isSome) :
    ∃ d', Steps plugins supply d d' ∧ d'.delivered = d.delivered ++ Stream.read plugins limit s ∧
      (limit = some (Stream.read plugins limit s).length ∨
        d'.reader = some [] ∧ d'.channel = none ∧ d'.stand = .gone) := by
  fun_induction Stream.read plugins limit s generalizing d with
  | case1 s => exact ⟨d, .refl, (List.append_nil _).symm, .inl rfl⟩
  | case2 limit s hlimit r t htaken ih =>
    obtain ⟨d₁, hfirst, hshows, hdelivered⟩ := h.take plugins supply htaken
    obtain ⟨d₂, hrest, hread, hend⟩ := ih hshows (reader_of_take? htaken)
    refine ⟨d₂, .head hfirst hrest, by rw [hread, hdelivered, List.append_assoc]; rfl, ?_⟩
    refine hend.imp (fun henough => ?_) id
    cases limit with
    | none => simp at henough
    | some n =>
      simp only [Option.map_some, Option.some.injEq, Nat.pred_eq_sub_one] at henough hlimit ⊢
      rw [List.length_cons]
      omega
  | case3 limit s hlimit htake t hreceived ih =>
    obtain ⟨d₁, hfirst, hshows, hdelivered⟩ :=
      h.receive plugins supply hreceived
    obtain ⟨d₂, hrest, hread, hend⟩ := ih hshows (reader_of_receive? hreceived)
    exact ⟨d₂, .head hfirst hrest, by rw [hread, hdelivered], hend⟩
  | case4 limit s hlimit htake hreceive t hstepped ih =>
    obtain ⟨d₁, hfirst, hshows, hdelivered⟩ := h.step supply hstepped
    obtain ⟨d₂, hrest, hread, hend⟩ := ih hshows (by rw [reader_of_step? hstepped, hreader])
    exact ⟨d₂, hfirst.trans hrest, by rw [hread, hdelivered], hend⟩
  | case5 limit s hlimit htake hreceive hstep =>
    obtain ⟨hr, hc, hleaving | hgone⟩ := h.quiet hreader htake hreceive hstep
    · exact ⟨_, .single (.giveBack hleaving), (List.append_nil _).symm, .inr ⟨hr, hc, rfl⟩⟩
    · exact ⟨d, .refl, (List.append_nil _).symm, .inr ⟨hr, hc, hgone⟩⟩

theorem length_read_le (limit : Nat) (s : Stream) :
    (Stream.read plugins (some limit) s).length ≤ limit := by
  generalize hsome : some limit = l
  fun_induction Stream.read plugins l s generalizing limit with
  | case1 s => exact Nat.zero_le _
  | case2 l s hlimit r t htaken ih =>
    subst hsome
    have hrest := ih (limit - 1) rfl
    have hpos : limit ≠ 0 := fun h => hlimit (by rw [h])
    rw [List.length_cons]
    omega
  | case3 l s hlimit htake t hreceived ih => exact ih limit hsome
  | case4 l s hlimit htake hreceive t hstepped ih => exact ih limit hsome
  | case5 => exact Nat.zero_le _

end

end Delivery

/-- The task of a stream, once the database has answered. -/
def Supply.task : Supply → Fetch
  | .ok ks => .fetching ks
  | .error e => .refused e

namespace Delivery

section

variable {plugins : List Plugin} {supply : Supply} {d : Delivery}

theorem steps_task (plugins : List Plugin) (supply : Supply) :
    ∃ d', Steps plugins supply {} d' ∧ d'.Shows { task := supply.task } ∧ d'.delivered = [] := by
  cases supply with
  | ok ks => exact ⟨_, .single (.acquire rfl rfl), ⟨.fetching ks, rfl, rfl⟩, rfl⟩
  | error e => exact ⟨_, .single (.refuse rfl rfl), ⟨.refused e, rfl, rfl⟩, rfl⟩

/-- A reader that reads on gets the first rows of what is owed: as many as it wants, or all. -/
theorem read_task (plugins : List Plugin) (supply : Supply) (limit : Option Nat) :
    Stream.read plugins limit { task := supply.task } <+: owed plugins supply ∧
      (limit = some (Stream.read plugins limit { task := supply.task }).length ∨
        Stream.read plugins limit { task := supply.task } = owed plugins supply) := by
  obtain ⟨d₁, hfirst, hshows, hnone⟩ := steps_task plugins supply
  obtain ⟨d₂, hrest, hread, hend⟩ := hshows.read supply limit rfl
  rw [hnone, List.nil_append] at hread
  have hsound : d₂.Sound plugins supply := Reachable.sound (hfirst.trans hrest)
  refine ⟨hread ▸ hsound.delivered, hend.imp id fun ⟨hr, hc, hgone⟩ => ?_⟩
  rw [← hread, hsound.all_delivered hr hc hgone]

theorem read_all (plugins : List Plugin) (supply : Supply) :
    Stream.read plugins none { task := supply.task } = owed plugins supply :=
  (read_task plugins supply none).2.resolve_left nofun

theorem read_some (plugins : List Plugin) (supply : Supply) (limit : Nat) :
    Stream.read plugins (some limit) { task := supply.task } = (owed plugins supply).take limit := by
  obtain ⟨hbegins, henough | hall⟩ := read_task plugins supply (some limit)
  · exact (List.prefix_iff_eq_take.mp hbegins).trans (by rw [← Option.some.inj henough])
  · rw [← hall, List.take_of_length_le (length_read_le limit _)]

/-- What the operations of a stream, in any order, have let its reader take. -/
inductive Taken (plugins : List Plugin) (start : Stream) :
    Stream → List (Except Error Row) → Prop
  | start : Taken plugins start start []
  | step {s t : Stream} {taken : List (Except Error Row)} (h : Taken plugins start s taken)
    (hstep : s.step? plugins = some t) : Taken plugins start t taken
  | receive {s t : Stream} {taken : List (Except Error Row)} (h : Taken plugins start s taken)
    (hreceive : s.receive? = some t) : Taken plugins start t taken
  | take {s t : Stream} {taken : List (Except Error Row)} {r : Except Error Row}
    (h : Taken plugins start s taken) (htake : s.take? = some (r, t)) :
    Taken plugins start t (taken ++ [r])
  | close {s : Stream} {taken : List (Except Error Row)} (h : Taken plugins start s taken)
    (hreader : s.reader.isSome) : Taken plugins start s.close taken

/-- The operations of a stream are steps of a delivery. -/
theorem Taken.reachable {s : Stream} {taken : List (Except Error Row)}
    (h : Taken plugins { task := supply.task } s taken) :
    ∃ d, Reachable plugins supply d ∧ d.Shows s ∧ d.delivered = taken := by
  induction h with
  | start => exact steps_task plugins supply
  | step _ hstep ih =>
    obtain ⟨d, hd, hshows, rfl⟩ := ih
    obtain ⟨d', hrun, hshows', hdelivered⟩ := hshows.step supply hstep
    exact ⟨d', hd.trans hrun, hshows', hdelivered⟩
  | receive _ hreceive ih =>
    obtain ⟨d, hd, hshows, rfl⟩ := ih
    obtain ⟨d', hrun, hshows', hdelivered⟩ := hshows.receive plugins supply hreceive
    exact ⟨d', hd.tail hrun, hshows', hdelivered⟩
  | take _ htake ih =>
    obtain ⟨d, hd, hshows, rfl⟩ := ih
    obtain ⟨d', hrun, hshows', hdelivered⟩ := hshows.take plugins supply htake
    exact ⟨d', hd.tail hrun, hshows', hdelivered⟩
  | close _ hreader ih =>
    obtain ⟨d, hd, hshows, rfl⟩ := ih
    obtain ⟨d', hrun, hshows', hdelivered⟩ := hshows.close plugins supply hreader
    exact ⟨d', hd.tail hrun, hshows', hdelivered⟩

/-- A task that is still there has not given its connection back, and one that is gone has. -/
theorem Sound.uses (h : d.Sound plugins supply) :
    d.uses = [] ∨ Holding supply d.uses ∨ GivenBack supply d.uses := by
  have hused := h.used
  cases hstand : d.stand <;> rw [hstand] at hused
  case asking => exact .inl hused
  case refused => exact .inl hused.2
  case gone => exact .inr (.inr hused)
  all_goals exact .inr (.inl hused)

/-- Whatever the order of the steps of a task and its reader: what was delivered is the beginning of
the rows behind the plugins, with the first error at their end, and a connection is given back once,
after all uses.  Every run comes to an end at which the task is gone and has given its connection
back, and a reader that has stayed has everything.  The operations of a stream are such steps, and
a reader that reads on gets what it wants of the rows. -/
theorem delivers (plugins : List Plugin) (supply : Supply) :
    (∀ d, Reachable plugins supply d →
      d.delivered <+: owed plugins supply ∧
      (∀ before e after, d.delivered = before ++ .error e :: after → after = []) ∧
      (d.uses = [] ∨ Holding supply d.uses ∨ GivenBack supply d.uses)) ∧
    (WellFounded fun t s => Step plugins supply s t) ∧
    (∀ d, Reachable plugins supply d → d.Settled plugins supply →
      GivenBack supply d.uses ∧ (d.reader.isSome → d.delivered = owed plugins supply)) ∧
    (∀ s taken, Taken plugins { task := supply.task } s taken → taken <+: owed plugins supply) ∧
    Stream.read plugins none { task := supply.task } = owed plugins supply ∧
    ∀ limit, Stream.read plugins (some limit) { task := supply.task } =
      (owed plugins supply).take limit := by
  refine ⟨fun d hd => ⟨hd.sound.delivered, fun before e after h => ?_, hd.sound.uses⟩,
    wellFounded_step plugins supply, fun d hd hsettled => ⟨?_, fun hreader => ?_⟩,
    fun s taken h => ?_, read_all plugins supply, read_some plugins supply⟩
  · obtain ⟨rest, hrest⟩ := hd.sound.delivered
    rw [h, List.append_assoc] at hrest
    exact (List.append_eq_nil_iff.mp (Stream.owed_error_last hrest.symm)).1
  · exact hd.sound.used_of hsettled.gone
  · obtain ⟨hr, hc⟩ := hsettled.arrived hreader
    exact hd.sound.all_delivered hr hc hsettled.gone
  · obtain ⟨d, hd, -, rfl⟩ := h.reachable
    exact hd.sound.delivered

/-- A row, and an error in the place of the next chunk. -/
def brokenSupply : Supply := .ok [.ok { rows := [[("id", .int 0)]] }, .error .noResult]

/-- The reader goes with the first row, while the task fetches: it gets no error, and the connection
is given back. -/
theorem delivers_broken :
    (∃ d, Reachable [] brokenSupply d ∧ d.Settled [] brokenSupply ∧ d.reader = none ∧
      d.delivered = [.ok [("id", .int 0)]] ∧ GivenBack brokenSupply d.uses) ∧
    Stream.read [] none { task := brokenSupply.task } =
      [.ok [("id", .int 0)], .error .noResult] := by
  obtain ⟨-, -, hsettled, -, hread, -⟩ := delivers [] brokenSupply
  have hrun : Reachable [] brokenSupply
      ⟨.gone, [.taken, .used, .used, .returned], none, none, [.ok [("id", .int 0)]]⟩ :=
    .head (.acquire rfl rfl) <| .head (.fetch rfl) <| .head (.changed rfl) <|
    .head (.send rfl rfl rfl) <| .head (.receive rfl rfl) <| .head (.take rfl) <|
    .head (.drop rfl) <| .head (.notice rfl (.inl rfl)) <| .single (.giveBack rfl)
  have hend : Settled [] brokenSupply
      ⟨.gone, [.taken, .used, .used, .returned], none, none, [.ok [("id", .int 0)]]⟩ := by
    intro t ht
    cases ht <;> simp_all
  exact ⟨⟨_, hrun, hend, rfl, rfl, (hsettled _ hrun hend).1⟩, hread⟩

end

end Delivery

namespace Database

variable {m : Type → Type} [Monad m] [LawfulMonad m]

/-- The rows of a statement are the first ones that are owed, however the database answers. -/
theorem stream_eq_owed (db : Database m) (n : Node) (chunkSize : Nat) (limit : Option Nat) :
    db.stream n chunkSize limit = do
      let q ← Action.ofExcept (db.compile n)
      let supply ← (db.fetch q chunkSize).attempt
      return match limit with
        | none => owed db.plugins supply
        | some k => (owed db.plugins supply).take k := by
  have hread : ∀ supply : Supply, Stream.read db.plugins limit { task := supply.task } =
      match limit with
      | none => owed db.plugins supply
      | some k => (owed db.plugins supply).take k := fun supply => by
    cases limit with
    | none => exact Delivery.read_all db.plugins supply
    | some k => exact Delivery.read_some db.plugins supply k
  simp only [stream, ← hread]
  refine bind_congr fun q => bind_congr fun supply => ?_
  cases supply <;> simp [Supply.task]

end Database

end SqlTree
