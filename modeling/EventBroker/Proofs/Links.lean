import EventBroker.Proofs.Frames

/-! # Links between channels and queues

A link is stored on both sides: the incarnation has the channel among its watchers, the channel has
the incarnation among its sources. `Broker.Linked` says that the sides agree. A live channel is
watching exactly the registered incarnations among its sources, a retired incarnation has no
watchers, and deliveries go by the watchers as they are. Every deed keeps it (`Linked.perform`).

Most deeds do not touch links at all. `SameLinks` says so, and `Linked.congr` carries the invariant
over; what remains are registering, retiring, creating and closing.
-/
set_option autoImplicit false

namespace EventBroker

/-- The queue without its counters. -/
def Queue.bare (q : Queue) : Queue := { q with pending := 0, delivered := 0 }

theorem Queue.of_bare {q q' : Queue} (h : q.bare = q'.bare) :
    q.serial = q'.serial ∧ q.id = q'.id ∧ q.retired = q'.retired ∧ q.watchers = q'.watchers ∧
      q.published = q'.published := by
  simp only [bare, Queue.mk.injEq] at h
  exact ⟨h.1, h.2.1, h.2.2.1, h.2.2.2.2.2.1, h.2.2.2.2.2.2⟩

namespace Channel

/-- The channel without what it holds and when it was touched. -/
def bare (c : Channel) : Channel :=
  { c with events := .empty, firstArrival := none, lastTouched := 0 }

/-- The incarnations among which a channel has its sources; none once it is closed. -/
def feeders (c : Channel) : List Nat := c.sources.getD []

@[simp] theorem offered_bare (c : Channel) (mono : Nat) (event : DeliveredEvent) :
    (c.offered mono event).bare = c.bare := by
  rw [offered_eq]
  rfl

theorem of_bare {c c' : Channel} (h : c.bare = c'.bare) :
    c.serial = c'.serial ∧ c.id = c'.id ∧ c.sources = c'.sources ∧ c.capacity = c'.capacity := by
  simp only [bare, Channel.mk.injEq] at h
  exact ⟨h.1, h.2.1, h.2.2.2.2.2.2.2.2, h.2.2.2.2.1⟩

/-- A new channel gets each of its targets as a source once, however often it is named. -/
theorem link_new {c : Channel} (h : c.sources = some []) (targets : List Nat) :
    ∃ ts, c.link targets = ({ c with sources := some ts }, ts) ∧ ts.Nodup ∧
      ∀ t, t ∈ ts ↔ t ∈ targets := by
  have hf : ∀ (targets known : List Nat), known.Nodup →
      (targets.foldl (fun acc t => if t ∈ acc then acc else acc ++ [t]) known).Nodup ∧
      ∀ t, t ∈ targets.foldl (fun acc t => if t ∈ acc then acc else acc ++ [t]) known ↔
        t ∈ known ∨ t ∈ targets := by
    intro targets
    induction targets with
    | nil => exact fun known hk => ⟨hk, fun t => by simp⟩
    | cons x rest ih =>
      intro known hk
      rw [List.foldl_cons]
      by_cases hx : x ∈ known
      · rw [if_pos hx]
        refine ⟨(ih known hk).1, fun t => ?_⟩
        rw [(ih known hk).2 t, List.mem_cons]
        refine ⟨fun ht => ht.imp_right .inr, ?_⟩
        rintro (ht | rfl | ht)
        · exact .inl ht
        · exact .inl hx
        · exact .inr ht
      · rw [if_neg hx]
        have hk' : (known ++ [x]).Nodup := by
          rw [List.nodup_append]
          refine ⟨hk, by simp, ?_⟩
          intro a ha y hy
          rw [List.mem_singleton] at hy
          rintro rfl
          exact hx (hy ▸ ha)
        refine ⟨(ih _ hk').1, fun t => ?_⟩
        rw [(ih _ hk').2 t, List.mem_append, List.mem_singleton, List.mem_cons, or_assoc]
  obtain ⟨hn, hm⟩ := hf targets [] List.nodup_nil
  refine ⟨_, ?_, hn, fun t => ?_⟩
  · simp only [link, h, List.length_nil, List.drop_zero]
  · rw [hm t]
    simp

end Channel

namespace Broker

structure Linked (b : Broker) : Prop where
  numbered : b.registry.Numbered
  distinct : b.Distinct
  serial_lt : ∀ c ∈ b.channels, c.serial < b.nextChannel
  capacity : ∀ c ∈ b.channels, c.capacity = b.channelCapacity
  sources : ∀ c ∈ b.channels, ∃ ts, c.sources = some ts ∧ ts.Nodup ∧
    ∀ t ∈ ts, t < b.registry.queues.length
  published : ∀ t q, b.registry.get? t = some q → q.published = q.watchers
  watchers : ∀ t q, b.registry.get? t = some q → q.watchers.Nodup
  watcher_iff : ∀ t q, b.registry.get? t = some q → ∀ n, n ∈ q.watchers ↔
    q.retired = false ∧ ∃ c ∈ b.channels, c.serial = n ∧ t ∈ c.feeders

/-! ## Deeds that leave links alone -/

structure SameLinks (b b' : Broker) : Prop where
  queues : ∀ t, (b'.registry.get? t).map Queue.bare = (b.registry.get? t).map Queue.bare
  channels : b'.channels.map Channel.bare = b.channels.map Channel.bare
  next : b'.nextChannel = b.nextChannel
  capacity : b'.channelCapacity = b.channelCapacity

namespace SameLinks

theorem refl (b : Broker) : SameLinks b b := ⟨fun _ => rfl, rfl, rfl, rfl⟩

theorem trans {b b' b'' : Broker} (h : SameLinks b b') (h' : SameLinks b' b'') :
    SameLinks b b'' where
  queues t := (h'.queues t).trans (h.queues t)
  channels := h'.channels.trans h.channels
  next := h'.next.trans h.next
  capacity := h'.capacity.trans h.capacity

theorem of_queues {b b' : Broker} (hc : b'.channels = b.channels)
    (hn : b'.nextChannel = b.nextChannel) (hk : b'.channelCapacity = b.channelCapacity)
    (hq : ∀ t, (b'.registry.get? t).map Queue.bare = (b.registry.get? t).map Queue.bare) :
    SameLinks b b' := ⟨hq, by rw [hc], hn, hk⟩

theorem of_channels {b b' : Broker} {f : Channel → Channel} (hr : b'.registry = b.registry)
    (hn : b'.nextChannel = b.nextChannel) (hk : b'.channelCapacity = b.channelCapacity)
    (hc : b'.channels = b.channels.map f) (hf : ∀ c, (f c).bare = c.bare) : SameLinks b b' where
  queues _ := by rw [hr]
  channels := by
    rw [hc, List.map_map]
    exact List.map_congr_left fun c _ => hf c
  next := hn
  capacity := hk

theorem get?_left {b b' : Broker} (h : SameLinks b b') {t : Nat} {q' : Queue}
    (hq : b'.registry.get? t = some q') : ∃ q, b.registry.get? t = some q ∧ q.bare = q'.bare := by
  have ht := h.queues t
  rw [hq, Option.map_some] at ht
  obtain ⟨q, hq, hb⟩ := Option.map_eq_some_iff.mp ht.symm
  exact ⟨q, hq, hb⟩

theorem length {b b' : Broker} (h : SameLinks b b') :
    b'.registry.queues.length = b.registry.queues.length := by
  have hs : ∀ t, t < b'.registry.queues.length ↔ t < b.registry.queues.length := by
    intro t
    have ht := congrArg Option.isSome (h.queues t)
    rw [Option.isSome_map, Option.isSome_map, Registry.get?, Registry.get?, Bool.eq_iff_iff] at ht
    simpa using ht
  have h1 := hs b'.registry.queues.length
  have h2 := hs b.registry.queues.length
  omega

theorem mem_left {b b' : Broker} (h : SameLinks b b') {c' : Channel} (hc : c' ∈ b'.channels) :
    ∃ c ∈ b.channels, c.bare = c'.bare := by
  have hm : c'.bare ∈ b'.channels.map Channel.bare := List.mem_map_of_mem hc
  rw [h.channels] at hm
  exact List.mem_map.mp hm

theorem mem_right {b b' : Broker} (h : SameLinks b b') {c : Channel} (hc : c ∈ b.channels) :
    ∃ c' ∈ b'.channels, c'.bare = c.bare := by
  have hm : c.bare ∈ b.channels.map Channel.bare := List.mem_map_of_mem hc
  rw [← h.channels] at hm
  exact List.mem_map.mp hm

end SameLinks

theorem Linked.congr {b b' : Broker} (h : b.Linked) (hs : SameLinks b b') : b'.Linked where
  numbered := by
    intro t q' hq'
    obtain ⟨q, hq, hb⟩ := hs.get?_left hq'
    rw [← (Queue.of_bare hb).1]
    exact h.numbered t q hq
  distinct := by
    have hm : b'.channels.map (·.serial) = b.channels.map (·.serial) := by
      simpa [List.map_map, Function.comp_def, Channel.bare] using
        congrArg (List.map Channel.serial) hs.channels
    rw [Distinct, hm]
    exact h.distinct
  serial_lt := by
    intro c' hc'
    obtain ⟨c, hc, hb⟩ := hs.mem_left hc'
    rw [← (Channel.of_bare hb).1, hs.next]
    exact h.serial_lt c hc
  capacity := by
    intro c' hc'
    obtain ⟨c, hc, hb⟩ := hs.mem_left hc'
    rw [← (Channel.of_bare hb).2.2.2, hs.capacity]
    exact h.capacity c hc
  sources := by
    intro c' hc'
    obtain ⟨c, hc, hb⟩ := hs.mem_left hc'
    rw [← (Channel.of_bare hb).2.2.1, hs.length]
    exact h.sources c hc
  published := by
    intro t q' hq'
    obtain ⟨q, hq, hb⟩ := hs.get?_left hq'
    obtain ⟨-, -, -, hw, hp⟩ := Queue.of_bare hb
    rw [← hp, ← hw]
    exact h.published t q hq
  watchers := by
    intro t q' hq'
    obtain ⟨q, hq, hb⟩ := hs.get?_left hq'
    rw [← (Queue.of_bare hb).2.2.2.1]
    exact h.watchers t q hq
  watcher_iff := by
    intro t q' hq' n
    obtain ⟨q, hq, hb⟩ := hs.get?_left hq'
    obtain ⟨-, -, hr, hw, -⟩ := Queue.of_bare hb
    rw [← hw, ← hr, h.watcher_iff t q hq n]
    refine and_congr_right fun _ => ⟨?_, ?_⟩
    · rintro ⟨c, hc, hn, ht⟩
      obtain ⟨c', hc', hcb⟩ := hs.mem_right hc
      obtain ⟨he, -, hf, -⟩ := Channel.of_bare hcb
      refine ⟨c', hc', he.trans hn, ?_⟩
      rw [Channel.feeders, hf]
      exact ht
    · rintro ⟨c', hc', hn, ht⟩
      obtain ⟨c, hc, hcb⟩ := hs.mem_left hc'
      obtain ⟨he, -, hf, -⟩ := Channel.of_bare hcb
      refine ⟨c, hc, he.trans hn, ?_⟩
      rw [Channel.feeders, hf]
      exact ht

theorem sameLinks_updateQueue (b : Broker) (t : Nat) {f : Queue → Queue}
    (hf : ∀ q, (f q).bare = q.bare) : SameLinks b (b.updateQueue t f) := by
  refine SameLinks.of_queues rfl rfl rfl fun s => ?_
  rw [updateQueue, Registry.get?_update]
  split
  · simp [Option.map_map, Function.comp_def, hf]
  · rfl

theorem sameLinks_cancelFor (b : Broker) (target : Nat) : SameLinks b (b.cancelFor target) := by
  have hs : SameLinks b { b with agenda := (b.agenda.cancel target).2 } :=
    ⟨fun _ => rfl, rfl, rfl, rfl⟩
  exact hs.trans (sameLinks_updateQueue _ target (f := (·.subPending (b.agenda.cancel target).1))
    fun _ => rfl)

theorem sameLinks_updateChannel (b : Broker) (n : Nat) {f : Channel → Channel}
    (hf : ∀ c, (f c).bare = c.bare) : SameLinks b (b.updateChannel n f) := by
  refine SameLinks.of_channels (f := fun c => if c.serial = n then f c else c) rfl rfl rfl rfl ?_
  intro c
  split
  · exact hf c
  · rfl

theorem sameLinks_getChannel (b : Broker) (id : ChannelId) (m : Moment) :
    SameLinks b (b.getChannel id m).2 := by
  unfold getChannel
  split
  · exact .refl b
  · exact sameLinks_updateChannel b _ fun _ => rfl

theorem sameLinks_dequeue (b : Broker) (id : ChannelId) (m : Moment) :
    SameLinks b (b.dequeue id m).2 := by
  unfold dequeue
  split
  · exact .refl b
  · next c _ =>
    have hs := sameLinks_updateChannel b c.serial (f := fun c => (c.touch m.now).drain)
      fun _ => rfl
    exact hs.trans ⟨fun _ => rfl, rfl, rfl, rfl⟩

theorem arm_get? (b : Broker) (id : EventId) (event : NewEvent) (targets : List Nat) (t : Nat) :
    (b.arm id event targets).registry.get? t = (b.registry.get? t).map
      (·.addPending (((expand event.rules targets).map (·.1)).count t)) := by
  have hi : ∀ (n : Nat) (q : Queue), (·.addPending 1)^[n] q = q.addPending n := by
    intro n
    induction n with
    | zero => exact fun _ => rfl
    | succ n ih =>
      intro q
      rw [Function.iterate_succ_apply', ih]
      rfl
  have hf : (b.arm id event targets).registry =
      ((expand event.rules targets).map (·.1)).foldl (fun r s => r.update s (·.addPending 1))
        b.registry := by
    rw [List.foldl_map]
    rfl
  rw [hf, Registry.get?_foldl_update]
  cases b.registry.get? t with
  | none => rfl
  | some q => simp only [Option.map_some, hi]

theorem sameLinks_arm (b : Broker) (id : EventId) (event : NewEvent) (targets : List Nat) :
    SameLinks b (b.arm id event targets) := by
  refine SameLinks.of_queues rfl rfl rfl fun t => ?_
  rw [arm_get?, Option.map_map]
  rfl

theorem Linked.sameLinks_fire {b : Broker} (h : b.Linked) (rule : ArmedRule) (m : Moment) :
    SameLinks b (b.fire rule m) where
  queues := by
    intro t
    rw [fire_get? h.numbered]
    split
    · rw [Option.map_map]
      rfl
    · rfl
  channels := by
    cases hf : b.firing? rule with
    | none => rw [fire_channels_of_not_firing? hf]
    | some q =>
      obtain ⟨hq, -⟩ := firing?_eq_some_iff.mp hf
      have hn : q.published.Nodup := by
        rw [h.published _ q hq]
        exact h.watchers _ q hq
      rw [h.distinct.fire_channels hf m hn, List.map_map]
      apply List.map_congr_left
      intro c _
      simp only [Function.comp_apply]
      split <;> simp
  next := fire_nextChannel b rule m
  capacity := fire_channelCapacity b rule m

/-! ## Deeds that change links -/

theorem Linked.createQueue {b : Broker} (h : b.Linked) (id : String) :
    (b.createQueue id).2.Linked := by
  unfold Broker.createQueue
  split
  · exact h
  split
  · exact h
  refine ⟨h.numbered.append id, h.distinct, h.serial_lt, h.capacity, ?_, ?_, ?_, ?_⟩
  · intro c hc
    obtain ⟨ts, hts, hn, hlt⟩ := h.sources c hc
    refine ⟨ts, hts, hn, fun t ht => ?_⟩
    have := hlt t ht
    simp only [Registry.append, List.length_append]
    omega
  · intro t q hq
    rw [Registry.get?_append] at hq
    split at hq
    · cases hq
      rfl
    · exact h.published t q hq
  · intro t q hq
    rw [Registry.get?_append] at hq
    split at hq
    · cases hq
      exact List.nodup_nil
    · exact h.watchers t q hq
  · intro t q hq n
    rw [Registry.get?_append] at hq
    split at hq
    · next ht =>
      cases hq
      -- A new incarnation is nobody's source yet.
      refine ⟨fun hn => absurd hn List.not_mem_nil, ?_⟩
      rintro ⟨-, c, hc, -, hf⟩
      obtain ⟨ts, hts, -, hlt⟩ := h.sources c hc
      rw [Channel.feeders, hts] at hf
      have := hlt t hf
      omega
    · exact h.watcher_iff t q hq n

theorem Linked.retire {b : Broker} (h : b.Linked) (id : String) : (b.retire id).2.Linked := by
  unfold Broker.retire
  split
  · next q hf =>
    have hg : ∀ t q', (b.updateQueue q.serial Queue.retire).registry.get? t = some q' →
        (∃ q₀, b.registry.get? t = some q₀ ∧ q' = q₀.retire) ∨ b.registry.get? t = some q' := by
      intro t q' hq'
      rw [updateQueue, Registry.get?_update] at hq'
      split at hq'
      · obtain ⟨q₀, hq₀, rfl⟩ := Option.map_eq_some_iff.mp hq'
        exact .inl ⟨q₀, hq₀, rfl⟩
      · exact .inr hq'
    refine ⟨h.numbered.update _ fun _ => rfl, h.distinct, h.serial_lt, h.capacity, ?_, ?_, ?_, ?_⟩
    · intro c hc
      have hl : (b.updateQueue q.serial Queue.retire).registry.queues.length =
          b.registry.queues.length := Registry.length_update ..
      rw [hl]
      exact h.sources c hc
    · intro t q' hq'
      rcases hg t q' hq' with ⟨q₀, -, rfl⟩ | hq'
      · rfl
      · exact h.published t q' hq'
    · intro t q' hq'
      rcases hg t q' hq' with ⟨q₀, -, rfl⟩ | hq'
      · exact List.nodup_nil
      · exact h.watchers t q' hq'
    · intro t q' hq' n
      rcases hg t q' hq' with ⟨q₀, -, rfl⟩ | hq'
      · simp [Queue.retire, Queue.publish]
      · exact h.watcher_iff t q' hq' n
  · exact h

/-- Creating a channel either changes nothing or makes a channel whose sources are the incarnations
that its names resolve to, and makes it a watcher of each of them. -/
theorem createChannel_cases (b : Broker) (id : ChannelId) (queues : List String)
    (options : BufferOptions) (m : Moment) :
    (∃ e, b.createChannel id queues options m = (.error e, b)) ∨
    ∃ targets ts, b.registry.resolve queues = .ok targets ∧ ts.Nodup ∧
      (∀ t, t ∈ ts ↔ t ∈ targets) ∧
      b.createChannel id queues options m = (.ok id, { b with
        registry := ts.foldl (fun r t => r.update t (·.attach b.nextChannel)) b.registry
        channels := b.channels ++ [{ Channel.new b.nextChannel id queues options b.channelCapacity
          m.now with sources := some ts }]
        nextChannel := b.nextChannel + 1 }) := by
  unfold createChannel
  split
  · exact .inl ⟨_, rfl⟩
  split
  · exact .inl ⟨_, rfl⟩
  cases hr : b.registry.resolve queues with
  | error e => exact .inl ⟨e, rfl⟩
  | ok targets =>
    obtain ⟨ts, hl, hn, hm⟩ := Channel.link_new
      (c := Channel.new b.nextChannel id queues options b.channelCapacity m.now) rfl targets
    refine .inr ⟨targets, ts, rfl, hn, hm, ?_⟩
    simp only [attach, hl, foldl_updateQueue]
    rfl

/-- No incarnation knows the number that the next channel gets. -/
theorem Linked.next_unwatched {b : Broker} (h : b.Linked) {t : Nat} {q : Queue}
    (hq : b.registry.get? t = some q) : b.nextChannel ∉ q.watchers := by
  intro hw
  obtain ⟨-, c, hc, hs, -⟩ := (h.watcher_iff t q hq _).mp hw
  have := h.serial_lt c hc
  omega

theorem Linked.attach_watchers {b : Broker} (h : b.Linked) {t : Nat} {q : Queue}
    (hq : b.registry.get? t = some q) :
    (q.attach b.nextChannel).watchers = q.watchers ++ [b.nextChannel] := by
  simp [Queue.attach, Queue.publish, h.next_unwatched hq]

/-- A new channel watches its sources, which are registered. -/
theorem Linked.addChannel {b : Broker} (h : b.Linked) {ts : List Nat} (hn : ts.Nodup)
    (hreg : ∀ t ∈ ts, ∃ q, b.registry.get? t = some q ∧ q.retired = false) {c : Channel}
    (hserial : c.serial = b.nextChannel) (hcapacity : c.capacity = b.channelCapacity)
    (hsources : c.sources = some ts) :
    Linked { b with
      registry := ts.foldl (fun r t => r.update t (·.attach b.nextChannel)) b.registry
      channels := b.channels ++ [c]
      nextChannel := b.nextChannel + 1 } where
  numbered t q' hq' := by
    obtain ⟨q, hq, rfl⟩ := Registry.of_get?_foldl_update hn hq'
    split
    · exact h.numbered t q hq
    · exact h.numbered t q hq
  distinct := by
    simp only [Distinct, List.map_append, List.nodup_append]
    refine ⟨h.distinct, by simp, ?_⟩
    intro n hn n' hn'
    obtain ⟨c', hc', rfl⟩ := List.mem_map.mp hn
    have hlt := h.serial_lt c' hc'
    have he : n' = b.nextChannel := by simpa [hserial] using hn'
    omega
  serial_lt c' hc' := by
    simp only
    rcases List.mem_append.mp hc' with hc' | hc'
    · have := h.serial_lt c' hc'
      omega
    · rw [List.mem_singleton.mp hc', hserial]
      exact Nat.lt_succ_self _
  capacity c' hc' := by
    rcases List.mem_append.mp hc' with hc' | hc'
    · exact h.capacity c' hc'
    · rw [List.mem_singleton.mp hc', hcapacity]
  sources c' hc' := by
    simp only [Registry.length_foldl_update]
    rcases List.mem_append.mp hc' with hc' | hc'
    · exact h.sources c' hc'
    · rw [List.mem_singleton.mp hc']
      refine ⟨ts, hsources, hn, fun t ht => ?_⟩
      obtain ⟨q, hq, -⟩ := hreg t ht
      exact Registry.lt_of_get? hq
  published t q' hq' := by
    obtain ⟨q, hq, rfl⟩ := Registry.of_get?_foldl_update hn hq'
    split
    · rfl
    · exact h.published t q hq
  watchers t q' hq' := by
    obtain ⟨q, hq, rfl⟩ := Registry.of_get?_foldl_update hn hq'
    split
    · rw [h.attach_watchers hq, List.nodup_append]
      refine ⟨h.watchers t q hq, by simp, ?_⟩
      intro x hx y hy
      rw [List.mem_singleton] at hy
      rintro rfl
      exact h.next_unwatched hq (hy ▸ hx)
    · exact h.watchers t q hq
  watcher_iff t q' hq' n := by
    obtain ⟨q, hq, rfl⟩ := Registry.of_get?_foldl_update hn hq'
    have hold := h.watcher_iff t q hq n
    have hfeeders : c.feeders = ts := by rw [Channel.feeders, hsources]; rfl
    by_cases ht : t ∈ ts
    · obtain ⟨q₀, hq₀, hr₀⟩ := hreg t ht
      obtain rfl := Option.some.inj (hq.symm.trans hq₀)
      rw [if_pos ht, h.attach_watchers hq, List.mem_append, List.mem_singleton, hold]
      simp [Queue.attach, Queue.publish, hr₀, hfeeders, hserial, ht, eq_comm]
    · rw [if_neg ht, hold]
      simp [hfeeders, ht]

theorem Linked.createChannel {b : Broker} (h : b.Linked) (id : ChannelId) (queues : List String)
    (options : BufferOptions) (m : Moment) : (b.createChannel id queues options m).2.Linked := by
  rcases b.createChannel_cases id queues options m with ⟨e, he⟩ | ⟨targets, ts, hr, hn, hm, he⟩
  · rw [he]
    exact h
  · rw [he]
    refine h.addChannel hn (fun t ht => ?_) rfl rfl rfl
    obtain ⟨_, _, q, hq, rfl⟩ := Registry.mem_resolve hr ((hm t).mp ht)
    exact ⟨q, h.numbered.get?_of_find? hq, (Registry.find?_spec hq).2.1⟩

theorem closeChannel_registry (b : Broker) (c : Channel) :
    (b.closeChannel c).registry =
      c.feeders.foldl (fun r t => r.update t (·.detach c.serial)) b.registry := by
  rw [closeChannel, foldl_updateQueue]
  rfl

theorem detach_eq {q : Queue} (h : q.published = q.watchers) (n : Nat) :
    q.detach n = { q with
      watchers := q.watchers.filter (· != n)
      published := q.watchers.filter (· != n) } := by
  unfold Queue.detach
  split
  · rfl
  · next hn =>
    have hf : q.watchers.filter (· != n) = q.watchers := by
      rw [List.filter_eq_self]
      intro x hx
      rw [bne_iff_ne]
      rintro rfl
      exact hn hx
    cases q
    simp only at h hf
    subst h
    rw [hf]

/-- Where a channel has no source, it is no watcher, so that leaving changes nothing there. -/
theorem Linked.of_get?_closeChannel {b : Broker} (h : b.Linked) {c : Channel} (hc : c ∈ b.channels)
    {t : Nat} {q' : Queue} (hq' : (b.closeChannel c).registry.get? t = some q') :
    ∃ q, b.registry.get? t = some q ∧ q' = q.detach c.serial := by
  obtain ⟨ts, hts, hn, -⟩ := h.sources c hc
  have hfeed : c.feeders = ts := by rw [Channel.feeders, hts]; rfl
  rw [closeChannel_registry, hfeed] at hq'
  obtain ⟨q, hq, rfl⟩ := Registry.of_get?_foldl_update hn hq'
  refine ⟨q, hq, ?_⟩
  split
  · rfl
  · next ht =>
    have hw : c.serial ∉ q.watchers := by
      intro hw
      obtain ⟨-, c', hc', hs, hf⟩ := (h.watcher_iff t q hq _).mp hw
      rw [h.distinct.eq_of_serial hc' hc hs, hfeed] at hf
      exact ht hf
    rw [Queue.detach, if_neg hw]

theorem Linked.closeChannel {b : Broker} (h : b.Linked) {c : Channel} (hc : c ∈ b.channels) :
    (b.closeChannel c).Linked := by
  have hmem : ∀ c', c' ∈ (b.closeChannel c).channels ↔ c' ∈ b.channels ∧ c'.serial ≠ c.serial := by
    intro c'
    rw [closeChannel_channels b c, List.mem_filter, bne_iff_ne]
  have hlen : (b.closeChannel c).registry.queues.length = b.registry.queues.length := by
    rw [closeChannel_registry, Registry.length_foldl_update]
  have hnext : (b.closeChannel c).nextChannel = b.nextChannel := by
    rw [Broker.closeChannel, foldl_updateQueue]
  have hcap : (b.closeChannel c).channelCapacity = b.channelCapacity := by
    rw [Broker.closeChannel, foldl_updateQueue]
  refine ⟨?_, h.distinct.closeChannel c, ?_, ?_, ?_, ?_, ?_, ?_⟩
  · intro t q' hq'
    obtain ⟨q, hq, rfl⟩ := h.of_get?_closeChannel hc hq'
    rw [detach_eq (h.published t q hq)]
    exact h.numbered t q hq
  · intro c' hc'
    rw [hnext]
    exact h.serial_lt c' ((hmem c').mp hc').1
  · intro c' hc'
    rw [hcap]
    exact h.capacity c' ((hmem c').mp hc').1
  · intro c' hc'
    rw [hlen]
    exact h.sources c' ((hmem c').mp hc').1
  · intro t q' hq'
    obtain ⟨q, hq, rfl⟩ := h.of_get?_closeChannel hc hq'
    rw [detach_eq (h.published t q hq)]
  · intro t q' hq'
    obtain ⟨q, hq, rfl⟩ := h.of_get?_closeChannel hc hq'
    rw [detach_eq (h.published t q hq)]
    exact (h.watchers t q hq).filter _
  · intro t q' hq' n
    obtain ⟨q, hq, rfl⟩ := h.of_get?_closeChannel hc hq'
    rw [detach_eq (h.published t q hq)]
    simp only [List.mem_filter, bne_iff_ne, h.watcher_iff t q hq n, hmem]
    constructor
    · rintro ⟨⟨hr, c', hc', hs, hf⟩, hne⟩
      exact ⟨hr, c', ⟨hc', by rw [hs]; exact hne⟩, hs, hf⟩
    · rintro ⟨hr, c', ⟨hc', hne⟩, hs, hf⟩
      exact ⟨⟨hr, c', hc', hs, hf⟩, by rw [← hs]; exact hne⟩

theorem Linked.close {b : Broker} (h : b.Linked) (m : Moment) (serial : Nat) :
    (b.perform ⟨m, .close serial⟩).Linked := by
  simp only [perform]
  split
  · next c hc => exact h.closeChannel (mem_of_at? hc)
  · exact h

theorem Linked.foldl_closeChannel {b : Broker} (h : b.Linked) {cs : List Channel}
    (hs : cs.Sublist b.channels) : (cs.foldl Broker.closeChannel b).Linked := by
  rw [← h.distinct.replay_close ⟨0, 0⟩ hs]
  clear hs
  induction cs generalizing b with
  | nil => exact h
  | cons c rest ih => exact ih (h.close ⟨0, 0⟩ c.serial)

theorem Linked.drop {b : Broker} (h : b.Linked) :
    (b.channels.foldl Broker.closeChannel b).drop.Linked := by
  have hl := h.foldl_closeChannel (List.Sublist.refl b.channels)
  have hnil := channels_close_all b
  refine ⟨hl.numbered, List.nodup_nil, ?_, ?_, ?_, hl.published, hl.watchers, ?_⟩
  · exact fun _ hc => absurd hc List.not_mem_nil
  · exact fun _ hc => absurd hc List.not_mem_nil
  · exact fun _ hc => absurd hc List.not_mem_nil
  · intro t q hq n
    rw [hl.watcher_iff t q hq n, hnil]
    rfl

/-! ## Every deed -/

theorem Linked.perform {b : Broker} (h : b.Linked) (d : Deed) : (b.perform d).Linked := by
  obtain ⟨m, action⟩ := d
  cases action with
  | createQueue id => exact h.createQueue id
  | retire id => exact h.retire id
  | cancelFor target => exact h.congr (sameLinks_cancelFor b target)
  | arm id event targets => exact h.congr (sameLinks_arm b id event targets)
  | popDue now => exact h.congr ⟨fun _ => rfl, rfl, rfl, rfl⟩
  | fire rule => exact h.congr (h.sameLinks_fire rule m)
  | createChannel id queues options => exact h.createChannel id queues options m
  | getChannel id => exact h.congr (sameLinks_getChannel b id m)
  | dequeue id => exact h.congr (sameLinks_dequeue b id m)
  | close serial => exact h.close m serial
  | subscribe category =>
    simp only [Broker.perform]
    split
    · next hs =>
      rw [subscribe_eq hs]
      exact h.congr ⟨fun _ => rfl, rfl, rfl, rfl⟩
    · exact h
  | unsubscribe s =>
    simp only [Broker.perform]
    split
    · next hs =>
      rw [unsubscribe_eq hs]
      exact h.congr ⟨fun _ => rfl, rfl, rfl, rfl⟩
    · exact h
  | receive s => exact h.congr ⟨fun _ => rfl, rfl, rfl, rfl⟩
  | receiveUpTo s max => exact h.congr ⟨fun _ => rfl, rfl, rfl, rfl⟩
  | wake => exact h.congr ⟨fun _ => rfl, rfl, rfl, rfl⟩
  | drop => exact h.drop

theorem Linked.replay {b : Broker} (h : b.Linked) (deeds : List Deed) : (b.replay deeds).Linked :=
  replay_induction (fun _ d hb => hb.perform d) h deeds

theorem Linked.new {settings : BrokerSettings} {b : Broker} (h : Broker.new settings = .ok b) :
    b.Linked := by
  rw [Broker.new_eq h]
  refine ⟨Registry.Numbered.empty, List.nodup_nil, ?_, ?_, ?_, ?_, ?_, ?_⟩
  · exact fun _ hc => absurd hc List.not_mem_nil
  · exact fun _ hc => absurd hc List.not_mem_nil
  · exact fun _ hc => absurd hc List.not_mem_nil
  · intro t q hq
    simp [Registry.get?, Registry.empty] at hq
  · intro t q hq
    simp [Registry.get?, Registry.empty] at hq
  · intro t q hq
    simp [Registry.get?, Registry.empty] at hq

end Broker

end EventBroker
