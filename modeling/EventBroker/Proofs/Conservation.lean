import EventBroker.Proofs.Publishing
import EventBroker.Proofs.SessionRuns
import Mathlib.Algebra.GroupWithZero.Nat

/-! # The events in the buffers

Every push that is offered to a channel ends in one of four ways: the channel was full, the event
was dequeued, it was discarded with its channel, or it is still held. The broker counts the first
two and keeps the number of events held beside the channels, for its gauge. `Counted` says that this
number is what the channels hold, and that two other counts agree with what they count; `Booked`
says of a change that no push is lost from the books. Every deed is booked, and so is every run.
-/
set_option autoImplicit false

namespace EventBroker

/-- The events that were handed out, whatever made the channel ripe. -/
def Metrics.dequeued (metrics : Metrics) : Nat :=
  metrics.dequeuedBySize + metrics.dequeuedByTime + metrics.dequeuedByPoll

/-- The live channels that are attached to the incarnation: to each the event is offered. -/
def Firing.offers (f : Firing) : Nat :=
  f.broker.channels.countP fun c => f.queue.serial ∈ c.feeders

namespace Broker

variable {b b' b'' : Broker} {c : Channel} {d : Deed}

/-- What all live channels hold together. -/
def inBuffers (b : Broker) : Nat := (b.channels.map (·.events.size)).sum

/-- The events that a deed discards with the channels that it closes. -/
def discarded (b : Broker) (d : Deed) : Nat :=
  match d.action with
  | .close serial => ((b.at? serial).map (·.events.size)).getD 0
  | .drop => b.inBuffers
  | _ => 0

/-- The pushes that a deed offers. -/
def offered (b : Broker) (d : Deed) : Nat := ((Firing.ofDeed? b d).map Firing.offers).getD 0

/-! ## What the channels hold -/

/-- A live channel among the others, which all have serial numbers of their own. -/
theorem Distinct.split (h : b.Distinct) (hc : c ∈ b.channels) :
    ∃ before after, b.channels = before ++ c :: after ∧
      (∀ x ∈ before, x.serial ≠ c.serial) ∧ ∀ x ∈ after, x.serial ≠ c.serial := by
  obtain ⟨before, after, hl⟩ := List.append_of_mem hc
  have hn : (before ++ c :: after).Pairwise fun x y => x.serial ≠ y.serial :=
    hl ▸ List.pairwise_map.mp h
  obtain ⟨-, ha, hb⟩ := List.pairwise_append.mp hn
  exact ⟨before, after, hl, fun x hx => hb x hx c List.mem_cons_self,
    fun x hx => ((List.pairwise_cons.mp ha).1 x hx).symm⟩

/-- Changing one channel changes what is held by what that channel holds. -/
theorem Distinct.inBuffers_update {a : Broker} (h : b.Distinct) (hc : c ∈ b.channels)
    {f : Channel → Channel}
    (hb : a.channels = b.channels.map fun x => if x.serial = c.serial then f x else x) :
    a.inBuffers + c.events.size = b.inBuffers + (f c).events.size := by
  have hrest : ∀ cs : List Channel, (∀ x ∈ cs, x.serial ≠ c.serial) →
      cs.map (fun x => if x.serial = c.serial then f x else x) = cs := fun cs hcs =>
    (List.map_congr_left fun x hx => if_neg (hcs x hx)).trans (List.map_id _)
  obtain ⟨before, after, hl, hbefore, hafter⟩ := h.split hc
  rw [inBuffers, inBuffers, hb, hl, List.map_append, List.map_cons, hrest before hbefore,
    hrest after hafter, if_pos rfl]
  simp only [List.map_append, List.map_cons, List.sum_append, List.sum_cons]
  omega

theorem Distinct.inBuffers_closeChannel (h : b.Distinct) (hc : c ∈ b.channels) :
    (b.closeChannel c).inBuffers + c.events.size = b.inBuffers := by
  have hrest : ∀ cs : List Channel, (∀ x ∈ cs, x.serial ≠ c.serial) →
      cs.filter (·.serial != c.serial) = cs := fun cs hcs =>
    List.filter_eq_self.mpr fun x hx => bne_iff_ne.mpr (hcs x hx)
  obtain ⟨before, after, hl, hbefore, hafter⟩ := h.split hc
  rw [inBuffers, inBuffers, closeChannel_channels, hl, List.filter_append, List.filter_cons,
    hrest before hbefore, hrest after hafter]
  simp only [bne_self_eq_false, Bool.false_eq_true, if_false, List.map_append, List.map_cons,
    List.sum_append, List.sum_cons]
  omega

/-- The channels that have an incarnation among their sources are its watchers. -/
theorem Linked.countP_feeders (h : b.Linked) {t : Nat} {q : Queue}
    (hq : b.registry.get? t = some q) (hr : q.retired = false) :
    b.channels.countP (fun c => t ∈ c.feeders) = q.published.length := by
  have hn : ((b.channels.filter fun c => t ∈ c.feeders).map (·.serial)).Nodup :=
    h.distinct.sublist (List.filter_sublist.map _)
  have hp : ((b.channels.filter fun c => t ∈ c.feeders).map (·.serial)).Perm q.published := by
    rw [h.published t q hq, List.perm_ext_iff_of_nodup hn (h.watchers t q hq)]
    intro n
    rw [h.watcher_iff t q hq n]
    simp only [hr, List.mem_map, List.mem_filter, decide_eq_true_eq, true_and]
    constructor
    · rintro ⟨c, ⟨hc, ht⟩, hs⟩
      exact ⟨c, hc, hs, ht⟩
    · rintro ⟨c, hc, hs, ht⟩
      exact ⟨c, ⟨hc, ht⟩, hs⟩
  rw [List.countP_eq_length_filter, ← hp.length_eq, List.length_map]

/-! ## The books -/

/-- The broker's counts of what its channels hold, of its late rules and of its subscribers agree
with what they count. A gauge that was never touched stands for zero. -/
structure Counted (b : Broker) : Prop where
  buffered : b.metrics.buffered = b.inBuffers
  gauge : b.metrics.bufferedGauge.getD 0 = b.inBuffers
  lateness : (b.metrics.lateness.map (·.count)).getD 0 = b.metrics.rulesFired
  subscribers : ∀ n, b.metrics.subscribersGauge = some n → n = b.gateway.subscribers

/-- A change after which the counts agree and every push is accounted for: those that were offered
on the way, those that were discarded, and what was held before and is held now. -/
structure Booked (b b' : Broker) (offered discarded : Nat) : Prop where
  counted : b'.Counted
  pushes : b'.metrics.overflowDropped + b'.metrics.dequeued + discarded + b'.inBuffers =
    b.metrics.overflowDropped + b.metrics.dequeued + offered + b.inBuffers

namespace Booked

variable {offered offered' discarded discarded' : Nat}

theorem refl (h : b.Counted) : Booked b b 0 0 := ⟨h, rfl⟩

theorem trans (h : Booked b b' offered discarded) (h' : Booked b' b'' offered' discarded') :
    Booked b b'' (offered + offered') (discarded + discarded') := by
  have hp := h.pushes
  have hp' := h'.pushes
  exact ⟨h'.counted, by omega⟩

/-- A change of other fields, and of channels that hold what they held. -/
theorem of_inBuffers {a : Broker} (h : b.Counted) (hh : a.inBuffers = b.inBuffers)
    (hm : a.metrics = { b.metrics with
      eventsScheduled := a.metrics.eventsScheduled
      rulesDropped := a.metrics.rulesDropped
      streamPushed := a.metrics.streamPushed
      streamDropped := a.metrics.streamDropped
      subscribersGauge := a.metrics.subscribersGauge })
    (hs : ∀ n, a.metrics.subscribersGauge = some n → n = a.gateway.subscribers) :
    Booked b a 0 0 := by
  have hc : a.Counted := by
    refine ⟨?_, ?_, ?_, hs⟩
    · rw [hm, hh]
      exact h.buffered
    · rw [hm, hh]
      exact h.gauge
    · rw [hm]
      exact h.lateness
  refine ⟨hc, ?_⟩
  rw [hh, hm]
  rfl

end Booked

/-! ## Channels that are made or looked at -/

/-- A new channel holds nothing. -/
theorem Booked.createChannel (h : b.Counted) (id : ChannelId) (queues : List String)
    (options : BufferOptions) (m : Moment) :
    Booked b (b.createChannel id queues options m).2 0 0 := by
  have hh : (b.createChannel id queues options m).2.inBuffers = b.inBuffers := by
    obtain ⟨e, he⟩ | ⟨targets, ts, -, -, -, he⟩ := createChannel_cases b id queues options m
    · rw [he]
    · rw [he]
      simp [inBuffers, Channel.new, Fifo.empty]
  refine .of_inBuffers h hh ?_ ?_
  · rw [createChannel_eq]
  · rw [createChannel_eq]
    exact h.subscribers

theorem Booked.getChannel (hd : b.Distinct) (h : b.Counted) (id : ChannelId) (m : Moment) :
    Booked b (b.getChannel id m).2 0 0 := by
  unfold Broker.getChannel
  cases hf : b.channel? id with
  | none => exact .refl h
  | some c =>
    have hh := hd.inBuffers_update (List.mem_of_find?_eq_some hf) (f := (·.touch m.now))
      (a := b.updateChannel c.serial (·.touch m.now)) rfl
    exact .of_inBuffers h (Nat.add_right_cancel hh) rfl h.subscribers

/-! ## Leaving the buffers -/

theorem Counted.gauge_release (h : b.Counted) (n : Nat) :
    (b.metrics.release n).bufferedGauge.getD 0 = b.inBuffers - n := by
  unfold Metrics.release
  split
  · next hn =>
    rw [hn]
    exact h.gauge
  · rw [← h.buffered]
    rfl

theorem dequeued_dequeue (metrics : Metrics) (trigger : FlushTrigger) (n : Nat) :
    (metrics.dequeue trigger n).dequeued = metrics.dequeued + n := by
  unfold Metrics.dequeue
  split
  · next hn =>
    rw [hn]
    rfl
  · rw [Metrics.release_eq]
    cases trigger <;> simp only [Metrics.dequeued] <;> omega

namespace Booked

/-- Events leave the buffers, to be handed out or to be discarded. -/
theorem of_release (h : b.Counted) {n lost : Nat} (hh : b'.inBuffers + n = b.inBuffers)
    (hg : b'.gateway = b.gateway)
    (hm : b'.metrics = { b.metrics.release n with
      dequeuedBySize := b'.metrics.dequeuedBySize
      dequeuedByTime := b'.metrics.dequeuedByTime
      dequeuedByPoll := b'.metrics.dequeuedByPoll })
    (hd : b'.metrics.dequeued + lost = b.metrics.dequeued + n) : Booked b b' 0 lost := by
  have hgauge := h.gauge_release n
  have hbuffered := h.buffered
  have hr := Metrics.release_eq b.metrics n
  refine ⟨⟨?_, ?_, ?_, ?_⟩, ?_⟩
  · have he : b'.metrics.buffered = b.metrics.buffered - n := by rw [hm, hr]
    omega
  · have he : b'.metrics.bufferedGauge = (b.metrics.release n).bufferedGauge := by rw [hm]
    rw [he]
    omega
  · rw [hm, hr]
    exact h.lateness
  · rw [hm, hr, hg]
    exact h.subscribers
  · have he : b'.metrics.overflowDropped = b.metrics.overflowDropped := by rw [hm, hr]
    omega

theorem closeChannel (hd : b.Distinct) (h : b.Counted) (hc : c ∈ b.channels) :
    Booked b (b.closeChannel c) 0 c.events.size := by
  have hg : (b.closeChannel c).gateway = b.gateway := by rw [closeChannel_eq]
  refine of_release h (hd.inBuffers_closeChannel hc) hg ?_ ?_
  · rw [closeChannel_metrics]
  · rw [closeChannel_metrics, Metrics.release_eq]
    rfl

/-- Live channels are closed one after another. -/
theorem foldl_closeChannel (hd : b.Distinct) (h : b.Counted) {cs : List Channel}
    (hs : cs.Sublist b.channels) :
    Booked b (cs.foldl Broker.closeChannel b) 0 (cs.map (·.events.size)).sum := by
  induction cs generalizing b with
  | nil => exact .refl h
  | cons c rest ih =>
    have hc := closeChannel hd h (hs.subset List.mem_cons_self)
    have hr := ih (hd.closeChannel c) hc.counted (hd.sublist_closeChannel hs)
    rw [List.map_cons, List.sum_cons]
    exact hc.trans hr

theorem drop (hd : b.Distinct) (h : b.Counted) :
    Booked b (b.channels.foldl Broker.closeChannel b).drop 0 b.inBuffers := by
  have hb := foldl_closeChannel hd h (List.Sublist.refl b.channels)
  have hh : (b.channels.foldl Broker.closeChannel b).drop.inBuffers =
      (b.channels.foldl Broker.closeChannel b).inBuffers := by
    rw [inBuffers, inBuffers, channels_close_all]
    rfl
  exact hb.trans (of_inBuffers hb.counted hh rfl hb.counted.subscribers)

theorem dequeue (hd : b.Distinct) (h : b.Counted) (id : ChannelId) (m : Moment) :
    Booked b (b.dequeue id m).2 0 0 := by
  unfold Broker.dequeue
  cases hf : b.channel? id with
  | none => exact .refl h
  | some c =>
    have hc : c ∈ b.channels := List.mem_of_find?_eq_some hf
    have hh := hd.inBuffers_update hc (f := fun c => (c.touch m.now).drain)
      (a := b.updateChannel c.serial fun c => (c.touch m.now).drain) rfl
    exact of_release h hh rfl (Metrics.dequeue_eq _ _ _) (dequeued_dequeue _ _ _)

end Booked

/-! ## Firing -/

namespace Booked

/-- One push: the channel takes the event, or it is full and the event is counted as lost. -/
theorem offerTo (hd : b.Distinct) (h : b.Counted) (m : Moment) (event : DeliveredEvent)
    {watcher : Nat} (hw : ∃ c ∈ b.channels, c.serial = watcher) :
    Booked b (offerTo m event b watcher) 1 0 := by
  obtain ⟨c, hc, rfl⟩ := hw
  have ha : b.channels.find? (·.serial == c.serial) = some c := hd.at?_of_mem hc
  unfold Broker.offerTo
  simp only [ha]
  cases ho : c.offer? m.mono event with
  | none =>
    refine ⟨⟨h.buffered, h.gauge, h.lateness, h.subscribers⟩, ?_⟩
    simp only [inBuffers, Metrics.dequeued]
    omega
  | some c' =>
    have hsize : c'.events.size = c.events.size + 1 := by
      unfold Channel.offer? at ho
      split at ho
      · cases ho
      · cases ho
        rfl
    have hh := hd.inBuffers_update hc (f := fun _ => c')
      (a := b.updateChannel c.serial fun _ => c') rfl
    have hbuffered := h.buffered
    have hheld : (b.updateChannel c.serial fun _ => c').inBuffers = b.inBuffers + 1 := by omega
    refine ⟨⟨?_, ?_, h.lateness, h.subscribers⟩, ?_⟩
    · exact (congrArg (· + 1) hbuffered).trans hheld.symm
    · exact (congrArg (· + 1) hbuffered).trans hheld.symm
    · exact (congrArg _ hheld).trans (by simp only [Metrics.dequeued, Metrics.bufferOne]; omega)

theorem foldl_offerTo (hd : b.Distinct) (h : b.Counted) (m : Moment) (event : DeliveredEvent)
    {watchers : List Nat} (hw : ∀ n ∈ watchers, ∃ c ∈ b.channels, c.serial = n) :
    Booked b (watchers.foldl (Broker.offerTo m event) b) watchers.length 0 := by
  induction watchers generalizing b with
  | nil => exact .refl h
  | cons n rest ih =>
    rw [List.forall_mem_cons] at hw
    have ho := offerTo hd h m event hw.1
    have hc := hd.offerTo_channels m event n
    have hd' : (Broker.offerTo m event b n).Distinct := hd.of_map (fun c => by split <;> simp) hc
    have hr := ih hd' ho.counted fun n' hn' => by
      obtain ⟨c, hm, hs⟩ := hw.2 n' hn'
      refine ⟨_, hc ▸ List.mem_map_of_mem hm, ?_⟩
      split <;> simpa using hs
    rw [List.length_cons, Nat.add_comm]
    exact ho.trans hr

theorem push (h : b.Counted) (event : DeliveredEvent) : Booked b (b.push event) 0 0 := by
  have hs : (b.push event).gateway.subscribers = b.gateway.subscribers := by
    simp only [Broker.push]
    cases hf : b.gateway.find? event.category with
    | none => rw [Gateway.publish_none hf]
    | some c => rw [Gateway.publish_some hf]
  exact of_inBuffers h rfl rfl (hs ▸ h.subscribers)

/-- The rule is counted, and how late it was. -/
theorem fired (h : b.Counted) (late : Nat) :
    Booked b { b with metrics := b.metrics.fire late } 0 0 := by
  have hl : (Histogram.record b.metrics.lateness late).count =
      (b.metrics.lateness.map (·.count)).getD 0 + 1 := by
    unfold Histogram.record
    cases b.metrics.lateness <;> rfl
  exact ⟨⟨h.buffered, h.gauge, hl.trans (congrArg (· + 1) h.lateness), h.subscribers⟩, rfl⟩

theorem deliver (hd : b.Distinct) (h : b.Counted) (rule : ArmedRule) {q : Queue} (m : Moment)
    (hw : ∀ n ∈ q.published, ∃ c ∈ b.channels, c.serial = n) :
    Booked b (b.deliver rule q m) q.published.length 0 := by
  have hcounted := of_inBuffers (a := b.updateQueue q.serial fun q =>
    { q with delivered := q.delivered + 1 }) h rfl rfl h.subscribers
  have hoffered := foldl_offerTo (b := b.updateQueue q.serial fun q =>
    { q with delivered := q.delivered + 1 }) hd hcounted.counted m (delivery rule q.id m.now) hw
  have hpushed := push hoffered.counted (delivery rule q.id m.now)
  have hfired := fired hpushed.counted (m.now - rule.fireAt)
  have hall := hcounted.trans (hoffered.trans (hpushed.trans hfired))
  rw [Nat.zero_add] at hall
  exact hall

/-- A rule is offered to the live channels that are attached to its incarnation. -/
theorem fire (hl : b.Linked) (h : b.Counted) (rule : ArmedRule) (m : Moment) :
    Booked b (b.fire rule m) (b.offered ⟨m, .fire rule⟩) 0 := by
  cases hf : b.firing? rule with
  | none =>
    have ho : b.offered ⟨m, .fire rule⟩ = 0 := by simp only [offered, Firing.ofDeed?, hf]; rfl
    have hm := fire_metrics_of_not_firing? hf m
    have hg : (b.fire rule m).gateway = b.gateway := by
      rw [fire_of_not_firing? hf]
      rfl
    have hh : (b.fire rule m).inBuffers = b.inBuffers := by
      rw [inBuffers, fire_channels_of_not_firing? hf]
      rfl
    rw [ho]
    refine of_inBuffers h hh ?_ ?_
    · rw [hm]
    · rw [hm, hg]
      exact h.subscribers
  | some q =>
    obtain ⟨hq, hr⟩ := firing?_eq_some_iff.mp hf
    have hserial : q.serial = rule.target := hl.numbered _ q hq
    have ho : b.offered ⟨m, .fire rule⟩ = q.published.length := by
      have hc := hl.countP_feeders hq hr
      rw [← hserial] at hc
      simp only [offered, Firing.ofDeed?, hf]
      exact hc
    have hw : ∀ n ∈ q.published, ∃ c ∈ b.channels, c.serial = n := by
      intro n hn
      rw [hl.published _ q hq, hl.watcher_iff _ q hq] at hn
      obtain ⟨-, c, hc, hs, -⟩ := hn
      exact ⟨c, hc, hs⟩
    have hp := of_inBuffers (a := b.updateQueue rule.target (·.subPending 1)) h rfl rfl
      h.subscribers
    have hd := deliver (b := b.updateQueue rule.target (·.subPending 1)) hl.distinct hp.counted rule
      (q := q.subPending 1) m hw
    have hall := hp.trans hd
    rw [Nat.zero_add] at hall
    rw [fire_of_firing? hf, ho]
    exact hall

end Booked

/-! ## Subscribers -/

/-- A subscriber that was not registered is not counted off. -/
theorem subscribers_of_not_registered {g g' : Gateway DeliveredEvent} {s : Subscription}
    (h : g.unsubscribe s = .ok (false, g')) : g'.subscribers = g.subscribers := by
  unfold Gateway.unsubscribe at h
  simp only at h
  split at h
  · cases h
    rfl
  · unfold Gateway.deregister at h
    split at h
    · cases h
      rfl
    · split at h
      · cases h
        rfl
      · simp only at h
        split at h <;> split at h <;> cases h

theorem Booked.subscribe (h : b.Counted) {category : String} {s : Subscription}
    (hs : b.subscribe category = .ok (s, b')) : Booked b b' 0 0 := by
  rw [subscribe_eq hs]
  exact .of_inBuffers h rfl rfl fun n hn => (Option.some.inj hn).symm

theorem Booked.unsubscribe (h : b.Counted) {s : Subscription} (hs : b.unsubscribe s = .ok b') :
    Booked b b' 0 0 := by
  obtain ⟨⟨registered, gateway⟩, hg, rfl⟩ := Session.map_eq_ok_iff.mp hs
  cases registered with
  | true => exact .of_inBuffers h rfl rfl fun n hn => (Option.some.inj hn).symm
  | false =>
    have hc := subscribers_of_not_registered hg
    exact .of_inBuffers h rfl rfl fun n hn => (h.subscribers n hn).trans hc.symm

theorem Booked.of_sameService (h : b.Counted) {gateway : Gateway DeliveredEvent}
    (hg : Gateway.SameService b.gateway gateway) : Booked b { b with gateway } 0 0 := by
  have hs : gateway.subscribers = b.gateway.subscribers := by rw [hg.eq]
  exact .of_inBuffers h rfl rfl fun n hn => (h.subscribers n hn).trans hs.symm

/-! ## Every deed -/

theorem booked (hl : b.Linked) (h : b.Counted) (d : Deed) :
    Booked b (b.perform d) (b.offered d) (b.discarded d) := by
  obtain ⟨m, action⟩ := d
  cases action with
  | createQueue id =>
    simp only [perform]
    rw [createQueue_eq]
    exact .of_inBuffers h rfl rfl h.subscribers
  | retire id =>
    simp only [perform]
    rw [retire_eq]
    exact .of_inBuffers h rfl rfl h.subscribers
  | cancelFor target => exact .of_inBuffers h rfl rfl h.subscribers
  | arm id event targets => exact .of_inBuffers h rfl rfl h.subscribers
  | popDue now => exact .of_inBuffers h rfl rfl h.subscribers
  | fire rule => exact .fire hl h rule m
  | createChannel id queues options => exact .createChannel h id queues options m
  | getChannel id => exact .getChannel hl.distinct h id m
  | dequeue id => exact .dequeue hl.distinct h id m
  | close serial =>
    simp only [perform, discarded]
    cases ha : b.at? serial with
    | none => exact .refl h
    | some c => exact .closeChannel hl.distinct h (mem_of_at? ha)
  | subscribe category =>
    simp only [perform]
    split
    · next hs => exact .subscribe h hs
    · exact .refl h
  | unsubscribe s =>
    simp only [perform]
    split
    · next hs => exact .unsubscribe h hs
    · exact .refl h
  | receive s => exact .of_sameService h (Gateway.receive_sameService b.gateway s)
  | receiveUpTo s max => exact .of_sameService h (Gateway.receiveUpTo_sameService b.gateway s max)
  | wake => exact .of_inBuffers h rfl rfl h.subscribers
  | drop => exact .drop hl.distinct h

theorem replay_booked (hl : b.Linked) (h : b.Counted) (deeds : List Deed) :
    Booked b (b.replay deeds) ((firings (b.journal deeds)).map Firing.offers).sum
      ((b.journal deeds).map fun (b, d) => b.discarded d).sum := by
  induction deeds generalizing b with
  | nil => exact .refl h
  | cons d rest ih =>
    have hd := booked hl h d
    have hr := hd.trans (ih (hl.perform d) hd.counted)
    have ho : ((firings (b.journal (d :: rest))).map Firing.offers).sum = b.offered d +
        ((firings ((b.perform d).journal rest)).map Firing.offers).sum := by
      simp only [journal, firings, List.filterMap_cons, offered]
      cases Firing.ofDeed? b d <;> simp
    rw [ho]
    exact hr

theorem Counted.new {settings : BrokerSettings} (h : Broker.new settings = .ok b) : b.Counted := by
  rw [new_eq h]
  exact ⟨rfl, rfl, rfl, fun n hn => by cases hn⟩

/-- A gauge shows what is held once it is touched, and before that nothing is held. -/
theorem Counted.gauge_shows (h : b.Counted) :
    (∀ n, b.metrics.bufferedGauge = some n → n = b.inBuffers) ∧
      (b.metrics.bufferedGauge = none → b.inBuffers = 0) := by
  have hg := h.gauge
  constructor
  · intro n hn
    rw [hn] at hg
    exact hg
  · intro hn
    rw [hn] at hg
    exact hg.symm

/-- The counts agree at every point of a journal, and in the end. -/
theorem Counted.of_journal (hl : b.Linked) (h : b.Counted) (deeds : List Deed) :
    ∀ broker ∈ b.replay deeds :: (b.journal deeds).map (·.1), broker.Linked ∧ broker.Counted := by
  have hreplay : ∀ deeds, (b.replay deeds).Linked ∧ (b.replay deeds).Counted := fun deeds =>
    ⟨hl.replay deeds, (replay_booked hl h deeds).counted⟩
  rw [List.forall_mem_cons]
  refine ⟨hreplay deeds, fun broker hm => ?_⟩
  obtain ⟨y, hy, rfl⟩ := List.mem_map.mp hm
  obtain ⟨before, -, -, he⟩ := replay_of_mem_journal hy
  exact he ▸ hreplay before

/-- Also while channels are being closed one after another, each that is left holds no more events
than are counted. -/
theorem Counted.size_le (hl : b.Linked) (h : b.Counted) {closed : List Channel}
    (hs : closed.Sublist b.channels) (hc : c ∈ (closed.foldl closeChannel b).channels) :
    c.events.size ≤ (closed.foldl closeChannel b).metrics.buffered := by
  have hb := (Booked.foldl_closeChannel hl.distinct h hs).counted.buffered
  have hh := (hl.foldl_closeChannel hs).distinct.inBuffers_closeChannel hc
  omega

end Broker

namespace Session

/-- In a session that begins with a new broker no event gets lost between the counts. In the course
of any steps, whatever runs beside them:

* the gauge of buffered events is what all live channels hold together, and zero has been held as
  long as it is untouched; this is so after every deed, and so at the end of every step;
* whenever events leave the buffers, also while channels are closed one after another, no more leave
  than are counted, so taking them off the count never stops at zero;
* every push that was offered is counted as lost to a full channel or as dequeued, or it was
  discarded with its channel, or it is still held;
* as many rules have been measured for lateness as have fired;
* the gauge of subscribers is their number. -/
theorem buffered_events_conserved {supply : IdSupply} {settings : BrokerSettings} {b : Broker}
    {m : Moment} (hb : Broker.new settings = .ok b) {steps : List Step} {answers : List Answer}
    {final : Session} (hr : (Session.new supply b m).run steps = .ok (answers, final)) :
    let journal := (Session.new supply b m).journal steps
    let metrics := final.broker.metrics
    (∀ broker ∈ final.broker :: journal.map (·.1),
      (∀ n, broker.metrics.bufferedGauge = some n → n = broker.inBuffers) ∧
      (broker.metrics.bufferedGauge = none → broker.inBuffers = 0) ∧
      ∀ closed : List Channel, closed.Sublist broker.channels →
        ∀ c ∈ (closed.foldl Broker.closeChannel broker).channels,
          c.events.size ≤ (closed.foldl Broker.closeChannel broker).metrics.buffered) ∧
    ((firings journal).map Firing.offers).sum = metrics.overflowDropped +
      (metrics.dequeuedBySize + metrics.dequeuedByTime + metrics.dequeuedByPoll) +
      (journal.map fun (b, d) => b.discarded d).sum + metrics.bufferedGauge.getD 0 ∧
    (metrics.lateness.map (·.count)).getD 0 = metrics.rulesFired ∧
    ∀ n, metrics.subscribersGauge = some n → n = final.broker.subscriberCount := by
  intro journal metrics
  have hl : b.Linked := .new hb
  have hc : b.Counted := .new hb
  have hfinal : final.broker = b.replay ((Session.new supply b m).deeds steps) :=
    run_replays hl hr
  have hall : b.Booked final.broker ((firings journal).map Firing.offers).sum
      (journal.map fun (b, d) => b.discarded d).sum := by
    rw [hfinal]
    exact Broker.replay_booked hl hc _
  have hmet : ∀ broker ∈ final.broker :: journal.map (·.1), broker.Linked ∧ broker.Counted := by
    rw [hfinal]
    exact Broker.Counted.of_journal hl hc _
  have hpushes : metrics.overflowDropped + metrics.dequeued +
      (journal.map fun (b, d) => b.discarded d).sum + final.broker.inBuffers =
        b.metrics.overflowDropped + b.metrics.dequeued +
          ((firings journal).map Firing.offers).sum + b.inBuffers := hall.pushes
  have hnew : b.metrics.overflowDropped + b.metrics.dequeued = 0 ∧ b.inBuffers = 0 := by
    rw [Broker.new_eq hb]
    exact ⟨rfl, rfl⟩
  have hgauge : metrics.bufferedGauge.getD 0 = final.broker.inBuffers := hall.counted.gauge
  refine ⟨fun broker hm => ?_, ?_, hall.counted.lateness, hall.counted.subscribers⟩
  · obtain ⟨hlinked, hcounted⟩ := hmet broker hm
    exact ⟨hcounted.gauge_shows.1, hcounted.gauge_shows.2,
      fun closed hs c hmem => hcounted.size_le hlinked hs hmem⟩
  · have hoffers : ((firings journal).map Firing.offers).sum = metrics.overflowDropped +
        metrics.dequeued + (journal.map fun (b, d) => b.discarded d).sum +
          metrics.bufferedGauge.getD 0 := by omega
    exact hoffers

/-- Two pushes into a buffer for one event, which is emptied, one that is discarded with its
channel, and one that stays in the next. -/
def buffering : List Step :=
  [.createQueue "jobs", .createChannel ["jobs", "jobs"] ⟨0, 1⟩,
    .submit ⟨[65], none, [⟨"jobs", 0, none⟩]⟩, .fire none,
    .submit ⟨[66], none, [⟨"jobs", 0, none⟩]⟩, .fire none,
    .dequeue "00000000-0000-0000-0000-000000000000",
    .submit ⟨[67], none, [⟨"jobs", 0, none⟩]⟩, .fire none, .reap 0,
    .createChannel ["jobs"] ⟨0, 1⟩, .submit ⟨[68], none, [⟨"jobs", 0, none⟩]⟩, .fire none]

theorem buffered_events_conserved_once : ∃ b answers final,
    Broker.new { channelCapacity := 1 } = .ok b ∧
      (Session.new .counting b ⟨0, 0⟩).run buffering = .ok (answers, final) ∧
      final.broker.metrics.overflowDropped = 1 ∧ final.broker.metrics.dequeuedBySize = 1 ∧
      final.broker.metrics.bufferedGauge = some 1 ∧ final.broker.inBuffers = 1 ∧
      ((firings ((Session.new .counting b ⟨0, 0⟩).journal buffering)).map Firing.offers).sum =
        3 + (((Session.new .counting b ⟨0, 0⟩).journal buffering).map fun (b, d) =>
          b.discarded d).sum := by
  obtain ⟨b, hb⟩ : ∃ b, Broker.new { channelCapacity := 1 } = .ok b := ⟨_, rfl⟩
  obtain ⟨answers, final, hr, hp⟩ := of_endsWith
    (r := (Session.new .counting b ⟨0, 0⟩).run buffering)
    (p := fun _ s => s.broker.metrics.overflowDropped == 1 &&
      s.broker.metrics.dequeuedBySize == 1 && s.broker.metrics.dequeued == 1 &&
      s.broker.metrics.bufferedGauge == some 1) (by cases hb; decide +kernel)
  simp only [Bool.and_eq_true, beq_iff_eq] at hp
  obtain ⟨⟨⟨hoverflow, hsize⟩, hdequeued⟩, hgauge⟩ := hp
  obtain ⟨hmet, hsum, -, -⟩ := buffered_events_conserved hb hr
  have hheld := (hmet final.broker List.mem_cons_self).1 1 hgauge
  refine ⟨b, answers, final, hb, hr, hoverflow, hsize, hgauge, hheld.symm, ?_⟩
  rw [hsum, hgauge, hoverflow, show _ + _ + _ = 1 from hdequeued, Option.getD_some]
  omega

end Session

end EventBroker
