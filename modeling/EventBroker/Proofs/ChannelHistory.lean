import EventBroker.Proofs.Agenda
import EventBroker.Proofs.Links
import Mathlib.Data.Set.Function
import Mathlib.Order.Interval.Set.Basic

/-! # What goes through a channel

A channel that stays alive is changed by each deed in one way, `Channel.after`, whatever happens to
other channels and queues. From it follows the balance of a whole run (`Linked.replay_events`): what
was handed out and what is still held is what was held at the start, followed by the deliveries of
the incarnations among the channel's sources that found room.
-/
set_option autoImplicit false

namespace EventBroker

/-- A channel after a deed that does not close it. -/
def Channel.after (b : Broker) (d : Deed) (c : Channel) : Channel :=
  match d.action with
  | .fire rule =>
    match b.firing? rule with
    | some q =>
      if q.serial ∈ c.feeders then
        c.offered d.moment.mono (Broker.delivery rule q.id d.moment.now)
      else c
    | none => c
  | .getChannel id => if c.id = id then c.touch d.moment.now else c
  | .dequeue id => if c.id = id then (c.touch d.moment.now).drain else c
  | _ => c

/-- Whether an identifier means the live channel with a serial number. -/
def Broker.means (b : Broker) (id : ChannelId) (serial : Nat) : Bool :=
  (b.channel? id).any (·.serial == serial)

/-- A channel after a deed that does not close it, however identifiers were given. -/
def Channel.next (b : Broker) (d : Deed) (c : Channel) : Channel :=
  match d.action with
  | .fire rule =>
    match b.firing? rule with
    | some q =>
      if q.serial ∈ c.feeders then
        c.offered d.moment.mono (Broker.delivery rule q.id d.moment.now)
      else c
    | none => c
  | .getChannel id => if b.means id c.serial then c.touch d.moment.now else c
  | .dequeue id => if b.means id c.serial then (c.touch d.moment.now).drain else c
  | _ => c

@[simp] theorem Channel.next_bare (b : Broker) (d : Deed) (c : Channel) :
    (c.next b d).bare = c.bare := by
  obtain ⟨m, action⟩ := d
  cases action with
  | fire rule =>
    simp only [Channel.next]
    split
    · split
      · exact offered_bare c _ _
      · rfl
    · rfl
  | getChannel id | dequeue id =>
    simp only [Channel.next]
    split <;> rfl
  | _ => rfl

@[simp] theorem Channel.after_bare (b : Broker) (d : Deed) (c : Channel) :
    (c.after b d).bare = c.bare := by
  unfold Channel.after
  repeat' split
  all_goals first | rfl | simp

namespace Broker

/-! ## Identifiers -/

/-- Each live channel has the identifier that goes with its serial number, and no identifier has
been given twice. -/
structure Identified (ident : Nat → ChannelId) (b : Broker) : Prop where
  id_eq : ∀ c ∈ b.channels, c.id = ident c.serial
  injOn : Set.InjOn ident (Set.Iio b.nextChannel)

/-- A deed that creates a channel takes the identifier that is next. -/
def TakesNext (ident : Nat → ChannelId) (b : Broker) (d : Deed) : Prop :=
  ∀ id queues options, d.action = .createChannel id queues options → id = ident b.nextChannel

variable {ident : Nat → ChannelId} {b : Broker}

theorem Identified.new {settings : BrokerSettings} (h : Broker.new settings = .ok b)
    (ident : Nat → ChannelId) : b.Identified ident := by
  rw [new_eq h]
  exact ⟨fun c hm => absurd hm List.not_mem_nil, fun i hi => absurd hi (Nat.not_lt_zero i)⟩

theorem Identified.serial_eq_iff (hn : b.Identified ident) (h : b.Linked) {c c' : Channel}
    (hc : c ∈ b.channels) (hc' : c' ∈ b.channels) : c.serial = c'.serial ↔ c.id = c'.id := by
  rw [hn.id_eq c hc, hn.id_eq c' hc']
  exact (hn.injOn.eq_iff (h.serial_lt c hc) (h.serial_lt c' hc')).symm

theorem mem_of_channel? {id : ChannelId} {c : Channel} (h : b.channel? id = some c) :
    c ∈ b.channels ∧ c.id = id :=
  ⟨List.mem_of_find?_eq_some h, by simpa using List.find?_some h⟩

theorem channel?_eq_none_iff {id : ChannelId} :
    b.channel? id = none ↔ ∀ c ∈ b.channels, c.id ≠ id := by
  simp [channel?]

theorem Identified.channel?_of_mem (hn : b.Identified ident) (h : b.Linked) {c : Channel}
    (hc : c ∈ b.channels) : b.channel? c.id = some c := by
  cases hf : b.channel? c.id with
  | none => exact absurd rfl (channel?_eq_none_iff.mp hf c hc)
  | some c' =>
    obtain ⟨hc', he⟩ := mem_of_channel? hf
    rw [h.distinct.eq_of_serial hc' hc ((hn.serial_eq_iff h hc' hc).mpr he)]

/-! ## One deed -/

/-- The channels that an incarnation is watched by are those that have it among their sources. -/
theorem Linked.watches_iff (h : b.Linked) {rule : ArmedRule} {q : Queue}
    (hf : b.firing? rule = some q) {c : Channel} (hc : c ∈ b.channels) :
    c.serial ∈ q.watchers ↔ q.serial ∈ c.feeders := by
  obtain ⟨hq, hr⟩ := firing?_eq_some_iff.mp hf
  rw [h.watcher_iff _ q hq, h.numbered _ q hq]
  constructor
  · rintro ⟨-, c', hc', he, ht⟩
    rwa [← h.distinct.eq_of_serial hc' hc he]
  · exact fun ht => ⟨hr, c, hc, rfl, ht⟩

theorem Linked.fire_channels (h : b.Linked) (rule : ArmedRule) (m : Moment) :
    (b.fire rule m).channels = b.channels.map (Channel.after b ⟨m, .fire rule⟩) := by
  cases hf : b.firing? rule with
  | none =>
    rw [fire_channels_of_not_firing? hf]
    symm
    refine (List.map_congr_left fun c _ => ?_).trans (List.map_id _)
    simp [Channel.after, hf]
  | some q =>
    have hq := (firing?_eq_some_iff.mp hf).1
    have hp := h.published _ q hq
    rw [h.distinct.fire_channels hf m (by rw [hp]; exact h.watchers _ q hq), hp]
    apply List.map_congr_left
    intro c hc
    simp only [Channel.after, hf, h.watches_iff hf hc]

theorem Identified.updateChannel_channels (hn : b.Identified ident) (h : b.Linked) {c : Channel}
    (hc : c ∈ b.channels) (f : Channel → Channel) :
    (b.updateChannel c.serial f).channels =
      b.channels.map fun c' => if c'.id = c.id then f c' else c' := by
  apply List.map_congr_left
  intro c' hc'
  simp only [hn.serial_eq_iff h hc' hc]

/-- What an identifier does to the channel that it means. -/
theorem channel?_means {id : ChannelId} {c : Channel} (hf : b.channel? id = some c) (serial : Nat) :
    b.means id serial = true ↔ serial = c.serial := by
  rw [means, hf, Option.any_some, beq_iff_eq, eq_comm]

theorem means_of_none {id : ChannelId} (hf : b.channel? id = none) (serial : Nat) :
    b.means id serial = false := by
  rw [means, hf]
  rfl

theorem Identified.means_iff (hn : b.Identified ident) (h : b.Linked) {c : Channel}
    (hc : c ∈ b.channels) (id : ChannelId) : b.means id c.serial = true ↔ c.id = id := by
  constructor
  · intro hm
    cases hf : b.channel? id with
    | none => rw [means_of_none hf] at hm; cases hm
    | some c' =>
      obtain ⟨hc', rfl⟩ := mem_of_channel? hf
      exact (hn.serial_eq_iff h hc hc').mp ((channel?_means hf _).mp hm)
  · rintro rfl
    exact (channel?_means (hn.channel?_of_mem h hc) _).mpr rfl

/-- If identifiers are given once, going by them is going by serial numbers. -/
theorem Identified.after_eq_next (hn : b.Identified ident) (h : b.Linked) {c : Channel}
    (hc : c ∈ b.channels) (d : Deed) : c.after b d = c.next b d := by
  obtain ⟨m, action⟩ := d
  cases action with
  | getChannel id | dequeue id =>
    simp only [Channel.after, Channel.next, hn.means_iff h hc]
  | _ => rfl

/-- The live channels after a deed that closes and creates none. -/
theorem Linked.perform_channels (h : b.Linked) {d : Deed}
    (hclose : ∀ serial, d.action ≠ .close serial) (hdrop : d.action ≠ .drop)
    (hcreate : ∀ id queues options, d.action ≠ .createChannel id queues options) :
    (b.perform d).channels = b.channels.map (Channel.next b d) := by
  obtain ⟨m, action⟩ := d
  cases action with
  | fire rule => exact h.fire_channels rule m
  | getChannel id =>
    simp only [Broker.perform, Broker.getChannel]
    cases hf : b.channel? id with
    | none =>
      symm
      refine (List.map_congr_left fun c' _ => ?_).trans (List.map_id _)
      simp [Channel.next, means_of_none hf]
    | some c =>
      refine List.map_congr_left fun c' _ => ?_
      simp only [Channel.next, channel?_means hf]
  | dequeue id =>
    simp only [Broker.perform, Broker.dequeue]
    cases hf : b.channel? id with
    | none =>
      symm
      refine (List.map_congr_left fun c' _ => ?_).trans (List.map_id _)
      simp [Channel.next, means_of_none hf]
    | some c =>
      refine List.map_congr_left fun c' _ => ?_
      simp only [Channel.next, channel?_means hf]
  | close serial => exact absurd rfl (hclose serial)
  | drop => exact absurd rfl hdrop
  | createChannel id queues options => exact absurd rfl (hcreate id queues options)
  | _ =>
    rw [(perform_framed b _).channels rfl]
    exact (List.map_id _).symm

/-- A live channel after a deed is either one from before or new. -/
theorem Linked.mem_next (h : b.Linked) {d : Deed} {c' : Channel}
    (hc : c' ∈ (b.perform d).channels) :
    (∃ c ∈ b.channels, c' = c.next b d) ∨
      ∃ id queues options ts, d.action = .createChannel id queues options ∧
        c' = { Channel.new b.nextChannel id queues options b.channelCapacity d.moment.now with
          sources := some ts } ∧
        (b.perform d).nextChannel = b.nextChannel + 1 ∧
        ∃ targets, b.registry.resolve queues = .ok targets ∧ ∀ t, t ∈ ts ↔ t ∈ targets := by
  obtain ⟨m, action⟩ := d
  by_cases hclose : ∃ serial, action = .close serial
  · obtain ⟨serial, rfl⟩ := hclose
    refine .inl ⟨c', ?_, rfl⟩
    simp only [Broker.perform] at hc
    split at hc
    · rw [closeChannel_channels] at hc
      exact (List.mem_filter.mp hc).1
    · exact hc
  by_cases hdrop : action = .drop
  · subst hdrop
    exact absurd hc List.not_mem_nil
  by_cases hcreate : ∃ id queues options, action = .createChannel id queues options
  · obtain ⟨id, queues, options, rfl⟩ := hcreate
    simp only [Broker.perform] at hc ⊢
    rcases b.createChannel_cases id queues options m with ⟨e, he⟩ | ⟨targets, ts, hr, -, hts, he⟩
    · rw [he] at hc
      exact .inl ⟨c', hc, rfl⟩
    · rw [he] at hc ⊢
      rcases List.mem_append.mp hc with hc | hc
      · exact .inl ⟨c', hc, rfl⟩
      · exact .inr ⟨id, queues, options, ts, rfl, List.mem_singleton.mp hc, rfl, targets, hr, hts⟩
  · rw [h.perform_channels (fun serial he => hclose ⟨serial, he⟩) hdrop
      fun id queues options he => hcreate ⟨id, queues, options, he⟩] at hc
    obtain ⟨c, hm, rfl⟩ := List.mem_map.mp hc
    exact .inl ⟨c, hm, rfl⟩

/-- A live channel after a deed is either one from before or new, with nothing in it. -/
theorem Linked.mem_perform (hn : b.Identified ident) (h : b.Linked) {d : Deed} {c' : Channel}
    (hc : c' ∈ (b.perform d).channels) :
    (∃ c ∈ b.channels, c' = c.after b d) ∨
      c'.serial = b.nextChannel ∧ c'.events = .empty ∧
        ∃ queues options, d.action = .createChannel c'.id queues options := by
  rcases h.mem_next hc with ⟨c, hm, rfl⟩ | ⟨id, queues, options, ts, ha, rfl, -⟩
  · exact .inl ⟨c, hm, (hn.after_eq_next h hm d).symm⟩
  · exact .inr ⟨rfl, rfl, queues, options, ha⟩

theorem nextChannel_le_perform (b : Broker) (d : Deed) :
    b.nextChannel ≤ (b.perform d).nextChannel := by
  cases ha : d.action with
  | createChannel id queues options =>
    simp only [perform, ha]
    rcases b.createChannel_cases id queues options d.moment with ⟨e, he⟩ | ⟨_, _, -, -, -, he⟩
    · rw [he]
    · rw [he]
      exact Nat.le_succ _
  | _ => exact Nat.le_of_eq ((perform_framed b d).nextChannel (by rw [ha]; rfl)).symm

theorem nextChannel_le_replay (b : Broker) (deeds : List Deed) :
    b.nextChannel ≤ (b.replay deeds).nextChannel :=
  replay_induction (P := fun b' => b.nextChannel ≤ b'.nextChannel)
    (fun b' d h => Nat.le_trans h (nextChannel_le_perform b' d)) (Nat.le_refl _) deeds

theorem Identified.perform (hn : b.Identified ident) (h : b.Linked) {d : Deed}
    (hd : b.TakesNext ident d) (hi : Set.InjOn ident (Set.Iio (b.perform d).nextChannel)) :
    (b.perform d).Identified ident := by
  refine ⟨fun c' hc => ?_, hi⟩
  rcases h.mem_perform hn hc with ⟨c, hm, rfl⟩ | ⟨hs, -, queues, options, ha⟩
  · obtain ⟨hs, hid, -⟩ := Channel.of_bare (Channel.after_bare b d c)
    rw [hs, hid]
    exact hn.id_eq c hm
  · rw [hs]
    exact hd _ _ _ ha

theorem Identified.replay (hn : b.Identified ident) (h : b.Linked) {deeds : List Deed}
    (hd : ∀ x ∈ b.journal deeds, x.1.TakesNext ident x.2)
    (hi : Set.InjOn ident (Set.Iio (b.replay deeds).nextChannel)) :
    (b.replay deeds).Identified ident := by
  induction deeds generalizing b with
  | nil => exact hn
  | cons d rest ih =>
    rw [journal, List.forall_mem_cons] at hd
    have hi₁ : Set.InjOn ident (Set.Iio (b.perform d).nextChannel) :=
      hi.mono (Set.Iio_subset_Iio (nextChannel_le_replay (b.perform d) rest))
    exact ih (hn.perform h hd.1 hi₁) (h.perform d) hd.2 hi

theorem replay_channelCapacity (b : Broker) (deeds : List Deed) :
    (b.replay deeds).channelCapacity = b.channelCapacity :=
  replay_induction (P := fun b' => b'.channelCapacity = b.channelCapacity)
    (fun b' d h => (perform_framed b' d).channelCapacity.trans h) rfl deeds

/-! ## Runs -/

/-- The events that the channel with an identifier holds. -/
def held (b : Broker) (id : ChannelId) : List DeliveredEvent :=
  ((b.channel? id).map (·.events.toList)).getD []

/-- The events that a deed takes out of a channel to hand them over. -/
def handedOut (id : ChannelId) : Broker × Deed → List DeliveredEvent
  | (b, ⟨_, .dequeue id'⟩) => if id' = id then b.held id else []
  | _ => []

end Broker

/-- Whether a firing goes into a channel: it fires into one of some incarnations, and the channel
has room for the event. -/
def Firing.goesInto (id : ChannelId) (capacity : Nat) (sources : List Nat) (f : Firing) : Bool :=
  f.queue.serial ∈ sources && (f.broker.held id).length < capacity

namespace Broker

variable {ident : Nat → ChannelId} {b : Broker}

/-- The balance of one deed. -/
theorem Linked.after_events (hn : b.Identified ident) (h : b.Linked) {c : Channel}
    (hc : c ∈ b.channels) (d : Deed) :
    handedOut c.id (b, d) ++ (c.after b d).events.toList =
      c.events.toList ++ ((firings [(b, d)]).filter
        (Firing.goesInto c.id b.channelCapacity c.feeders)).map Firing.event := by
  have hh : b.held c.id = c.events.toList := by
    simp [held, hn.channel?_of_mem h hc]
  obtain ⟨m, action⟩ := d
  cases action with
  | fire rule =>
    cases hf : b.firing? rule with
    | none => simp [handedOut, Channel.after, firings, Firing.ofDeed?, hf]
    | some q =>
      simp only [handedOut, Channel.after, firings, Firing.ofDeed?, hf, Option.map_some,
        List.filterMap_cons, List.filterMap_nil, List.nil_append, List.filter_cons,
        List.filter_nil, Firing.goesInto, hh]
      by_cases hs : q.serial ∈ c.feeders
      · by_cases hl : c.events.toList.length < b.channelCapacity
        · simp [hs, hl, Channel.offered_events, h.capacity c hc, Firing.event_eq]
        · simp [hs, hl, Channel.offered_events, h.capacity c hc]
      · simp [hs]
  | dequeue id =>
    by_cases hid : c.id = id
    · subst hid
      simp [handedOut, Channel.after, firings, Firing.ofDeed?, hh, Channel.drain]
    · have hid' : id ≠ c.id := fun he => hid he.symm
      simp [handedOut, Channel.after, firings, Firing.ofDeed?, hid, hid']
  | getChannel id =>
    simp only [handedOut, Channel.after, firings, Firing.ofDeed?]
    split <;> simp [Channel.touch]
  | _ => simp [handedOut, Channel.after, firings, Firing.ofDeed?]

/-- The balance of a run: what a channel hands out and what it holds at the end is what it held at
the start, followed by what went into it. -/
theorem Linked.replay_events (hn : b.Identified ident) (h : b.Linked) {deeds : List Deed}
    (hd : ∀ x ∈ b.journal deeds, x.1.TakesNext ident x.2)
    (hi : Set.InjOn ident (Set.Iio (b.replay deeds).nextChannel)) {c' : Channel}
    (hc : c' ∈ (b.replay deeds).channels) (hl : c'.serial < b.nextChannel) :
    ∃ c ∈ b.channels, c'.bare = c.bare ∧
      (b.journal deeds).flatMap (handedOut c'.id) ++ c'.events.toList =
        c.events.toList ++ ((firings (b.journal deeds)).filter
          (Firing.goesInto c'.id b.channelCapacity c'.feeders)).map Firing.event := by
  induction deeds generalizing b with
  | nil => exact ⟨c', hc, rfl, by simp [journal, firings]⟩
  | cons d rest ih =>
    rw [journal, List.forall_mem_cons] at hd
    have hi₁ : Set.InjOn ident (Set.Iio (b.perform d).nextChannel) :=
      hi.mono (Set.Iio_subset_Iio (nextChannel_le_replay (b.perform d) rest))
    obtain ⟨c₁, hc₁, hb₁, he₁⟩ := ih (hn.perform h hd.1 hi₁) (h.perform d) hd.2 hi hc
      (Nat.lt_of_lt_of_le hl (nextChannel_le_perform b d))
    -- what the rest of the run starts with was there before the deed: a new channel has a larger
    -- serial number
    rcases h.mem_perform hn hc₁ with ⟨c, hm, rfl⟩ | ⟨hs, -, -⟩
    · have hb : c'.bare = c.bare := hb₁.trans (Channel.after_bare b d c)
      obtain ⟨-, hid, hs, -⟩ := Channel.of_bare hb
      have hf : c'.feeders = c.feeders := by rw [Channel.feeders, hs, Channel.feeders]
      refine ⟨c, hm, hb, ?_⟩
      have hone := h.after_events hn hm d
      rw [← hid, ← hf] at hone
      rw [(perform_framed b d).channelCapacity] at he₁
      have hj : b.journal (d :: rest) = [(b, d)] ++ (b.perform d).journal rest := rfl
      calc (b.journal (d :: rest)).flatMap (handedOut c'.id) ++ c'.events.toList
          = handedOut c'.id (b, d) ++
              (((b.perform d).journal rest).flatMap (handedOut c'.id) ++ c'.events.toList) := by
            simp [journal]
        _ = (handedOut c'.id (b, d) ++ (c.after b d).events.toList) ++ ((firings
              ((b.perform d).journal rest)).filter
              (Firing.goesInto c'.id b.channelCapacity c'.feeders)).map Firing.event := by
            rw [he₁, List.append_assoc]
        _ = _ := by
            rw [hone, hj, firings_append, List.filter_append, List.map_append, List.append_assoc]
    · obtain ⟨hs₁, -⟩ := Channel.of_bare hb₁
      omega

/-- A channel hands out what it holds, and holds nothing afterwards. -/
theorem Linked.dequeue_twice (hn : b.Identified ident) (h : b.Linked) {c : Channel}
    (hc : c ∈ b.channels) (m m' : Moment) :
    (b.dequeue c.id m).1 = .ok c.events.toList ∧
      ((b.dequeue c.id m).2.dequeue c.id m').1 = .ok [] := by
  have hf := hn.channel?_of_mem h hc
  have hd : b.TakesNext ident ⟨m, .dequeue c.id⟩ := by
    intro id queues options ha
    cases ha
  have hm : (c.touch m.now).drain ∈ (b.dequeue c.id m).2.channels := by
    simp only [dequeue, hf, hn.updateChannel_channels h hc]
    refine List.mem_map.mpr ⟨c, hc, ?_⟩
    rw [if_pos rfl]
  have hi : Set.InjOn ident (Set.Iio (b.perform ⟨m, .dequeue c.id⟩).nextChannel) := by
    rw [(perform_framed b _).nextChannel rfl]
    exact hn.injOn
  have hf' := (hn.perform h hd hi).channel?_of_mem (h.perform ⟨m, .dequeue c.id⟩) hm
  constructor
  · rw [dequeue, hf]
  · have hf'' : (b.dequeue c.id m).2.channel? c.id = some (c.touch m.now).drain := hf'
    rw [dequeue, hf'']
    rfl

end Broker

end EventBroker
