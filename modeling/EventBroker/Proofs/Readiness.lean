import EventBroker.Proofs.Clocks
import EventBroker.Proofs.Lifetimes
import Mathlib.Data.List.Induction

/-! # When a channel is ready

What waits in a channel is what it has taken in since it was made or last drained: `arrivals` reads
this off a journal, each event with the monotonic time at which it was taken in. A channel's buffer
and the time it keeps of its first arrival are what its arrivals say (`channel_holds`). Being ready
depends on just these two, and only a deed that drains or closes the channel ends it
(`ready_replay`).
-/
set_option autoImplicit false

namespace EventBroker

/-- An event that a channel took in, and the monotonic time at which it did. -/
structure Arrival where
  mono : Nat
  event : DeliveredEvent

/-- What a dequeue of waiting events counts as: the buffer was long enough, or else the oldest event
has waited long enough, or else it was just asked for. -/
def BufferOptions.cause (options : BufferOptions) (waiting : List Arrival) (mono : Nat) :
    FlushTrigger :=
  if options.size ≤ waiting.length then .size
  else if ∃ first ∈ waiting.head?, first.mono + options.time ≤ mono then .time
  else .poll

/-- How many events have been dequeued for a reason. -/
def Metrics.dequeuedBy (m : Metrics) : FlushTrigger → Nat
  | .size => m.dequeuedBySize
  | .time => m.dequeuedByTime
  | .poll => m.dequeuedByPoll

theorem Metrics.dequeuedBy_dequeue (m : Metrics) (trigger t : FlushTrigger) (n : Nat) :
    (m.dequeue trigger n).dequeuedBy t = m.dequeuedBy t + if t = trigger then n else 0 := by
  unfold Metrics.dequeue Metrics.release
  split
  · next h => simp [h]
  · cases trigger <;> cases t <;> simp [Metrics.dequeuedBy]

namespace Broker

/-! ## Arrivals -/

/-- What waits in the channel with a serial number after a deed. -/
def arrive (serial : Nat) (waiting : List Arrival) (y : Broker × Deed) : List Arrival :=
  if makes serial y || drains serial y then []
  else
    match Firing.ofDeed? y.1 y.2 with
    | some f =>
      if serial ∈ f.queue.watchers ∧ waiting.length < y.1.channelCapacity then
        waiting ++ [⟨f.moment.mono, f.event⟩]
      else waiting
    | none => waiting

/-- What the channel with a serial number has taken in since it was made or last drained. -/
def arrivals (serial : Nat) (past : List (Broker × Deed)) : List Arrival :=
  past.foldl (arrive serial) []

theorem arrivals_concat (serial : Nat) (past : List (Broker × Deed)) (y : Broker × Deed) :
    arrivals serial (past ++ [y]) = arrive serial (arrivals serial past) y := List.foldl_concat ..

/-- Every arrival was at the moment of a deed. -/
theorem mem_arrivals {serial : Nat} {past : List (Broker × Deed)} {a : Arrival}
    (ha : a ∈ arrivals serial past) : ∃ y ∈ past, a.mono = y.2.moment.mono := by
  induction past using List.reverseRecOn with
  | nil => cases ha
  | append_singleton past y ih =>
    rw [arrivals_concat, arrive] at ha
    have hpast : a ∈ arrivals serial past → ∃ z ∈ past ++ [y], a.mono = z.2.moment.mono := by
      intro ha
      obtain ⟨z, hz, he⟩ := ih ha
      exact ⟨z, List.mem_append_left _ hz, he⟩
    split at ha
    · cases ha
    split at ha
    · next f hf =>
      split at ha
      · rcases List.mem_append.mp ha with ha | ha
        · exact hpast ha
        · refine ⟨y, by simp, ?_⟩
          rw [List.mem_singleton.mp ha]
          obtain ⟨b, m, action⟩ := y
          cases action with
          | fire rule =>
            obtain ⟨q, -, rfl⟩ := Option.map_eq_some_iff.mp hf
            rfl
          | _ => cases hf
      · exact hpast ha
    · exact hpast ha

end Broker

namespace Channel

variable {c : Channel}

theorem offered_firstArrival (c : Channel) (mono : Nat) (event : DeliveredEvent) :
    (c.offered mono event).firstArrival =
      if c.events.toList.length < c.capacity then c.firstArrival.or (some mono)
      else c.firstArrival := by
  unfold offered offer?
  rw [Fifo.size_eq_length]
  split
  · next h => rw [if_neg (Nat.not_lt.mpr h)]; rfl
  · next h => rw [if_pos (Nat.not_le.mp h)]; rfl

/-- The buffer and the first arrival of a channel are those of its arrivals. -/
structure Holds (c : Channel) (waiting : List Arrival) : Prop where
  events : c.events.toList = waiting.map (·.event)
  first : c.firstArrival = waiting.head?.map (·.mono)

theorem Holds.offered {waiting : List Arrival} (h : c.Holds waiting) (mono : Nat)
    (event : DeliveredEvent) : (c.offered mono event).Holds
      (if waiting.length < c.capacity then waiting ++ [⟨mono, event⟩] else waiting) := by
  have hlen : c.events.toList.length = waiting.length := by rw [h.events, List.length_map]
  constructor
  · rw [offered_events, hlen, h.events]
    split <;> simp
  · rw [offered_firstArrival, hlen, h.first]
    split
    · cases waiting <;> rfl
    · rfl

end Channel

namespace Broker

variable {b : Broker}

/-- A channel that holds its arrivals holds them after each deed. -/
theorem Linked.holds_next (h : b.Linked) {c : Channel} (hc : c ∈ b.channels)
    {past : List (Broker × Deed)} (hp : c.Holds (arrivals c.serial past)) (d : Deed) :
    (c.next b d).Holds (arrivals (c.next b d).serial (past ++ [(b, d)])) := by
  have hs : (c.next b d).serial = c.serial := (Channel.of_bare (Channel.next_bare b d c)).1
  rw [hs, arrivals_concat, arrive, h.not_makes hc, Bool.false_or]
  obtain ⟨m, action⟩ := d
  cases action with
  | fire rule =>
    simp only [drains, Bool.false_eq_true, if_false, Channel.next, Firing.ofDeed?]
    cases hf : b.firing? rule with
    | none => exact hp
    | some q =>
      simp only [Option.map_some, ← h.watches_iff hf hc]
      by_cases hw : c.serial ∈ q.watchers
      · have ho := hp.offered m.mono (delivery rule q.id m.now)
        rw [h.capacity c hc] at ho
        simpa [hw, Firing.event_eq] using ho
      · simpa [hw] using hp
  | dequeue id =>
    by_cases hm : drains c.serial (b, ⟨m, .dequeue id⟩) = true
    · have hm' : b.means id c.serial = true := hm
      simp only [hm, Channel.next, hm', if_true]
      exact ⟨rfl, rfl⟩
    · have hm' : ¬ b.means id c.serial = true := hm
      simp only [if_neg hm, Channel.next, if_neg hm']
      exact hp
  | getChannel id =>
    simp only [drains, Bool.false_eq_true, if_false, Channel.next, Firing.ofDeed?]
    split
    · exact ⟨hp.events, hp.first⟩
    · exact hp
  | _ => exact hp

/-- Every live channel holds its arrivals. -/
theorem Linked.channel_holds (h : b.Linked) (hn : b.channels = []) (deeds : List Deed) {c : Channel}
    (hc : c ∈ (b.replay deeds).channels) : c.Holds (arrivals c.serial (b.journal deeds)) := by
  have hall := h.channels_induction
    (P := fun past c => c.Holds (arrivals c.serial past))
    (fun past b id queues options m ts hm => ?_)
    (fun past b d c hb hc hp => hb.holds_next hc hp d) [] (by simp [hn]) deeds
  · exact hall c hc
  · rw [arrivals_concat, arrive, show (Channel.new b.nextChannel id queues options
      b.channelCapacity m.now).serial = b.nextChannel from rfl, hm]
    exact ⟨rfl, rfl⟩

end Broker

/-! ## Being ready -/

namespace Channel

variable {c : Channel}

theorem Holds.trigger {waiting : List Arrival} (h : c.Holds waiting) (mono : Nat)
    (hpast : ∀ a ∈ waiting, a.mono ≤ mono) : c.trigger mono = c.options.cause waiting mono := by
  have hlen : c.events.size = waiting.length := by
    rw [Fifo.size_eq_length, h.events, List.length_map]
  unfold Channel.trigger BufferOptions.cause
  rw [hlen, h.first]
  split
  · rfl
  · cases waiting with
    | nil => simp
    | cons a rest =>
      have hle := hpast a List.mem_cons_self
      have hiff : c.options.time ≤ mono - a.mono ↔ a.mono + c.options.time ≤ mono := by omega
      simp [hiff]

theorem ready_iff (mono : Nat) : c.ready mono = true ↔ c.events.toList ≠ [] ∧
    (c.options.size ≤ c.events.toList.length ∨
      ∃ first ∈ c.firstArrival, c.options.time ≤ mono - first) := by
  rw [ready, Bool.and_eq_true, Bool.not_eq_true', ← Bool.not_eq_true, Fifo.isEmpty_iff]
  refine and_congr_right fun _ => ?_
  rw [trigger, Fifo.size_eq_length]
  split
  · next hs => simp [hs]
  · next hs =>
    cases c.firstArrival with
    | none => simp [hs]
    | some first =>
      by_cases ht : c.options.time ≤ mono - first <;> simp [hs, ht]

/-- Being ready does not end by waiting. -/
theorem ready_of_le {mono mono' : Nat} (h : c.ready mono = true) (hle : mono ≤ mono') :
    c.ready mono' = true := by
  rw [ready_iff] at h ⊢
  obtain ⟨hne, hs | ⟨first, hf, ht⟩⟩ := h
  · exact ⟨hne, .inl hs⟩
  · exact ⟨hne, .inr ⟨first, hf, by omega⟩⟩

/-- Nor by an offer, whether it is taken or lost. -/
theorem ready_offered {mono : Nat} (h : c.ready mono = true) (at' : Nat) (event : DeliveredEvent) :
    (c.offered at' event).ready mono = true := by
  have ho : (c.offered at' event).options = c.options := by rw [offered_eq]
  rw [ready_iff] at h ⊢
  rw [ho, offered_events, offered_firstArrival]
  obtain ⟨hne, hcause⟩ := h
  refine ⟨fun he => hne (List.append_eq_nil_iff.mp he).1, hcause.imp (fun hs => ?_) ?_⟩
  · rw [List.length_append]
    omega
  · rintro ⟨first, hf, ht⟩
    refine ⟨first, ?_, ht⟩
    rw [Option.mem_def] at hf
    split <;> simp [hf]

theorem ready_next {b : Broker} {d : Deed} {mono : Nat} (h : c.ready mono = true)
    (hd : Broker.drains c.serial (b, d) = false) : (c.next b d).ready mono = true := by
  obtain ⟨m, action⟩ := d
  cases action with
  | fire rule =>
    simp only [next]
    split
    · split
      · exact ready_offered h _ _
      · exact h
    · exact h
  | dequeue id =>
    have hm : b.means id c.serial = false := hd
    simp only [next, hm]
    exact h
  | getChannel id =>
    simp only [next]
    split
    · exact h
    · exact h
  | _ => exact h

end Channel

namespace Broker

variable {b : Broker}

/-- Only a deed that closes or drains a channel that is ready ends that. -/
theorem Linked.ready_replay (h : b.Linked) {c : Channel} (hc : c ∈ b.channels) {mono : Nat}
    (hready : c.ready mono = true) {deeds : List Deed}
    (hd : ∀ y ∈ b.journal deeds, closes c.serial y = false ∧ drains c.serial y = false) :
    ∃ c' ∈ (b.replay deeds).channels, c'.serial = c.serial ∧ c'.ready mono = true := by
  induction deeds generalizing b c with
  | nil => exact ⟨c, hc, rfl, hready⟩
  | cons d rest ih =>
    rw [journal, List.forall_mem_cons] at hd
    have hs : (c.next b d).serial = c.serial := (Channel.of_bare (Channel.next_bare b d c)).1
    obtain ⟨c', hc', hs', hr'⟩ := ih (h.perform d) (h.next_mem hc hd.1.1)
      (Channel.ready_next hready hd.1.2) (by rw [hs]; exact hd.2)
    exact ⟨c', hc', hs'.trans hs, hr'⟩

end Broker

namespace Session

/-- What it means that a channel is ready. In every reachable state the first arrival that a live
channel keeps is the time at which its oldest waiting event was taken in; the channel is ready if
something waits and either enough of it or long enough, and asking about it tells so. It stays
ready until it is drained or closed. Draining it counts what was waiting for the one reason there
was, and as just asked for if it was not ready. -/
theorem channel_readiness {supply : IdSupply} {settings : BrokerSettings} {b : Broker}
    {start : Moment} {steps : List Step} {answers : List Answer} {s : Session}
    (hb : Broker.new settings = .ok b)
    (hr : (Session.new supply b start).run steps = .ok (answers, s)) {c : Channel}
    (hc : c ∈ s.broker.channels) {waiting : List Arrival}
    (hw : waiting = Broker.arrivals c.serial ((Session.new supply b start).journal steps)) :
    (c.events.toList = waiting.map (·.event) ∧ c.firstArrival = waiting.head?.map (·.mono) ∧
      (c.firstArrival.isSome = true ↔ c.events.toList ≠ []) ∧
      ∀ a ∈ waiting, a.mono ≤ s.moment.mono) ∧
    (c.ready s.moment.mono = true ↔ waiting ≠ [] ∧ (c.options.size ≤ waiting.length ∨
      ∃ first ∈ waiting.head?, first.mono + c.options.time ≤ s.moment.mono)) ∧
    (∀ id, s.broker.channel? id = some c → (s.broker.getChannel id s.moment).1 =
      .ok ⟨c.id, c.queues, c.options, waiting.length, c.ready s.moment.mono⟩) ∧
    (c.ready s.moment.mono = true → ∀ later answers' s', s.run later = .ok (answers', s') →
      (∀ y ∈ s.journal later,
        Broker.closes c.serial y = false ∧ Broker.drains c.serial y = false) →
      ∃ c' ∈ s'.broker.channels, c'.serial = c.serial ∧ c'.ready s'.moment.mono = true) ∧
    ∀ id, s.broker.channel? id = some c → waiting ≠ [] →
      (s.broker.dequeue id s.moment).1 = .ok (waiting.map (·.event)) ∧
      (∀ t, (s.broker.dequeue id s.moment).2.metrics.dequeuedBy t = s.broker.metrics.dequeuedBy t +
        if t = c.options.cause waiting s.moment.mono then waiting.length else 0) ∧
      (c.options.cause waiting s.moment.mono = .poll ↔ c.ready s.moment.mono = false) := by
  have hl : (Session.new supply b start).broker.Linked := Broker.Linked.new hb
  have hnone : (Session.new supply b start).broker.channels = [] := by
    show b.channels = []
    rw [Broker.new_eq hb]
  have hfinal : s.broker.Linked := linked_run hl hr
  have hholds : c.Holds waiting := by
    rw [hw]
    exact hl.channel_holds hnone _ (run_replays hl hr ▸ hc)
  have hpast : ∀ a ∈ waiting, a.mono ≤ s.moment.mono := by
    intro a ha
    rw [hw] at ha
    obtain ⟨y, hy, he⟩ := Broker.mem_arrivals ha
    rw [he]
    exact ((run_mono hl hr).2 _ (Broker.mem_of_mem_journal hy)).2
  have hempty : c.events.toList = [] ↔ waiting = [] := by rw [hholds.events, List.map_eq_nil_iff]
  have hlen : c.events.size = waiting.length := by
    rw [Fifo.size_eq_length, hholds.events, List.length_map]
  have htrigger := hholds.trigger s.moment.mono hpast
  refine ⟨⟨hholds.events, hholds.first, ?_, hpast⟩, ?_, fun id hid => ?_, ?_, fun id hid hne => ?_⟩
  · rw [hholds.first, hholds.events]
    cases waiting <;> simp
  · rw [Channel.ready_iff, hholds.first, ← Fifo.size_eq_length, hlen, ne_eq, hempty]
    refine and_congr_right fun _ => or_congr_right ?_
    cases waiting with
    | nil => simp
    | cons a rest =>
      have hle := hpast a List.mem_cons_self
      have hiff : c.options.time ≤ s.moment.mono - a.mono ↔
          a.mono + c.options.time ≤ s.moment.mono := by omega
      simp [hiff]
  · rw [Broker.getChannel, hid]
    show Except.ok (c.info s.moment.mono) = _
    rw [Channel.info, hlen]
  · intro hready later answers' s' hrun hd
    obtain ⟨c', hc', hs, hr'⟩ := hfinal.ready_replay hc hready hd
    rw [← run_replays hfinal hrun] at hc'
    exact ⟨c', hc', hs, Channel.ready_of_le hr' (run_mono hfinal hrun).1⟩
  · rw [Broker.dequeue, hid]
    dsimp only
    refine ⟨by rw [hholds.events], fun t => ?_, ?_⟩
    · rw [Metrics.dequeuedBy_dequeue, htrigger, hlen]
      rfl
    · have hsome : c.events.isEmpty = false := by
        rw [← Bool.not_eq_true, Fifo.isEmpty_iff, hempty]
        exact hne
      rw [Channel.ready, hsome, htrigger]
      simp

/-- One event has waited long enough in a channel for two. The channel is ready, stays so when the
wall clock is set back, its queue is deleted and somebody asks about it, and is drained for its
time. -/
theorem channel_readiness_once : ∃ b answers s c, ∃ waiting : List Arrival, ∃ answers' s',
    Broker.new {} = .ok b ∧
    (Session.new .counting b ⟨100, 0⟩).run [.createQueue "jobs", .createChannel ["jobs"] ⟨3, 2⟩,
      .submit ⟨[65], none, [⟨"jobs", 0, none⟩]⟩, .fire none, .advance 3] = .ok (answers, s) ∧
    c ∈ s.broker.channels ∧
    c.events.toList = waiting.map (·.event) ∧ waiting.length = 1 ∧
    c.ready s.moment.mono = true ∧
    s.run [.setWall (-7), .deleteQueue "jobs",
      .getChannel "00000000-0000-0000-0000-000000000000"] = .ok (answers', s') ∧
    (∃ c' ∈ s'.broker.channels, c'.serial = c.serial ∧ c'.ready s'.moment.mono = true) ∧
    ∀ t, (s.broker.dequeue c.id s.moment).2.metrics.dequeuedBy t =
      s.broker.metrics.dequeuedBy t + if t = .time then 1 else 0 := by
  obtain ⟨b, hb⟩ : ∃ b, Broker.new {} = .ok b := ⟨_, rfl⟩
  obtain ⟨answers, s, hr, hp⟩ := of_endsWith (r := (Session.new .counting b ⟨100, 0⟩).run
    [.createQueue "jobs", .createChannel ["jobs"] ⟨3, 2⟩,
      .submit ⟨[65], none, [⟨"jobs", 0, none⟩]⟩, .fire none, .advance 3])
    (p := fun _ s => s.broker.channels.any (fun c => c.serial == 0 && c.options == ⟨3, 2⟩ &&
        (c.events.size == 1 && (c.ready s.moment.mono &&
          (s.broker.channel? c.id).any (·.serial == 0)))) &&
      (endsWith (s.run [.setWall (-7), .deleteQueue "jobs",
        .getChannel "00000000-0000-0000-0000-000000000000"]) (fun _ _ => true) &&
      (s.journal [.setWall (-7), .deleteQueue "jobs",
        .getChannel "00000000-0000-0000-0000-000000000000"]).all fun y =>
          !Broker.closes 0 y && !Broker.drains 0 y))
    (by cases hb; decide +kernel)
  simp only [Bool.and_eq_true, List.any_eq_true, List.all_eq_true, Bool.not_eq_true',
    beq_iff_eq] at hp
  obtain ⟨⟨c, hc, ⟨hserial, hoptions⟩, hsize, hready, hmeans⟩, hend, hd⟩ := hp
  obtain ⟨answers', s', hrun, -⟩ := of_endsWith hend
  obtain ⟨waiting, hw⟩ : ∃ waiting, waiting = Broker.arrivals c.serial
    ((Session.new .counting b ⟨100, 0⟩).journal [.createQueue "jobs",
      .createChannel ["jobs"] ⟨3, 2⟩, .submit ⟨[65], none, [⟨"jobs", 0, none⟩]⟩, .fire none,
      .advance 3]) := ⟨_, rfl⟩
  obtain ⟨hwaits, hiff, -, hstays, hdrain⟩ := channel_readiness hb hr hc hw
  have hone : waiting.length = 1 := by
    rw [← hsize, Fifo.size_eq_length, hwaits.1, List.length_map]
  have hid : s.broker.channel? c.id = some c := by
    obtain ⟨c', hf, hs'⟩ := (Option.any_eq_true _ _).mp hmeans
    have hl : s.broker.Linked := Reachable.linked ⟨_, _, b, _, _, _, hb, hr⟩
    rw [hf, hl.distinct.eq_of_serial (Broker.mem_of_channel? hf).1 hc
      ((beq_iff_eq.mp hs').trans hserial.symm)]
  obtain ⟨hne, hcause⟩ := hiff.mp hready
  have htime : c.options.cause waiting s.moment.mono = .time := by
    rw [hone, hoptions] at hcause
    rw [BufferOptions.cause, hone, hoptions, if_neg (by decide),
      if_pos (hcause.resolve_left (by decide))]
  obtain ⟨-, hcounts, -⟩ := hdrain c.id hid hne
  refine ⟨b, answers, s, c, waiting, answers', s', hb, hr, hc, hwaits.1, hone, hready, hrun,
    hstays hready _ _ _ hrun (by rw [hserial]; exact hd), fun t => ?_⟩
  rw [hcounts t, htime, hone]

end Session

end EventBroker
