import EventBroker.Proofs.Deeds

/-! # What firing does

A rule fires into the incarnation it aims at, if that one is registered: `Broker.firing?`. Its event
is offered to every channel that the incarnation has published (`fire_channels`), the incarnation
counts it (`fire_get?`), and nothing else of queues, channels and agenda changes. `firings` reads
off a journal what fired into registered incarnations, in firing order.
-/
set_option autoImplicit false

namespace EventBroker

/-! ## Offering an event to channels -/

/-- The channel after an event was offered to it. -/
def Channel.offered (c : Channel) (mono : Nat) (event : DeliveredEvent) : Channel :=
  (c.offer? mono event).getD c

namespace Channel

theorem offered_eq (c : Channel) (mono : Nat) (event : DeliveredEvent) :
    c.offered mono event = { c with
      events := (c.offered mono event).events
      firstArrival := (c.offered mono event).firstArrival } := by
  unfold offered offer?
  split <;> rfl

@[simp] theorem offered_serial (c : Channel) (mono : Nat) (event : DeliveredEvent) :
    (c.offered mono event).serial = c.serial := by rw [offered_eq]

theorem offered_events (c : Channel) (mono : Nat) (event : DeliveredEvent) :
    (c.offered mono event).events.toList =
      c.events.toList ++ if c.events.toList.length < c.capacity then [event] else [] := by
  unfold offered offer?
  rw [Fifo.size_eq_length]
  split
  · next h => simp [Nat.not_lt.mpr h]
  · next h => simp [Nat.not_le.mp h]

end Channel

namespace Broker

theorem offerTo_eq (m : Moment) (event : DeliveredEvent) (b : Broker) (watcher : Nat) :
    offerTo m event b watcher = { b with
      channels := (offerTo m event b watcher).channels
      metrics := (offerTo m event b watcher).metrics } := by
  unfold offerTo
  split
  · rfl
  · split <;> rfl

theorem foldl_offerTo_eq (m : Moment) (event : DeliveredEvent) (b : Broker) (watchers : List Nat) :
    watchers.foldl (offerTo m event) b = { b with
      channels := (watchers.foldl (offerTo m event) b).channels
      metrics := (watchers.foldl (offerTo m event) b).metrics } := by
  induction watchers generalizing b with
  | nil => rfl
  | cons w rest ih =>
    rw [List.foldl_cons, ih, offerTo_eq]

theorem Distinct.offerTo_channels {b : Broker} (h : b.Distinct) (m : Moment)
    (event : DeliveredEvent) (watcher : Nat) :
    (offerTo m event b watcher).channels =
      b.channels.map fun c => if c.serial = watcher then c.offered m.mono event else c := by
  have hf : b.channels.find? (·.serial == watcher) = b.at? watcher := rfl
  unfold offerTo
  rw [hf]
  cases ha : b.at? watcher with
  | none =>
    symm
    refine (List.map_congr_left fun c hc => ?_).trans (List.map_id _)
    exact if_neg (at?_eq_none_iff.mp ha c hc)
  | some c =>
    have hc := mem_of_at? ha
    have hs := serial_of_at? ha
    simp only
    split
    · next c' ho =>
      simp only [updateChannel]
      apply List.map_congr_left
      intro d hd
      split
      · next he =>
        rw [h.eq_of_serial hd hc (he.trans hs.symm), Channel.offered, ho]
        rfl
      · rfl
    · next ho =>
      symm
      refine (List.map_congr_left fun d hd => ?_).trans (List.map_id _)
      split
      · next he =>
        rw [h.eq_of_serial hd hc (he.trans hs.symm), Channel.offered, ho]
        rfl
      · rfl

theorem Distinct.of_map {b b' : Broker} (h : b.Distinct) {f : Channel → Channel}
    (hf : ∀ c, (f c).serial = c.serial) (hc : b'.channels = b.channels.map f) : b'.Distinct := by
  have hm : b'.channels.map (·.serial) = b.channels.map (·.serial) := by
    simp [hc, List.map_map, Function.comp_def, hf]
  rw [Distinct, hm]
  exact h

/-- Every watcher is offered the event once. -/
theorem Distinct.foldl_offerTo_channels {b : Broker} (h : b.Distinct) (m : Moment)
    (event : DeliveredEvent) {watchers : List Nat} (hn : watchers.Nodup) :
    (watchers.foldl (offerTo m event) b).channels =
      b.channels.map fun c => if c.serial ∈ watchers then c.offered m.mono event else c := by
  induction watchers generalizing b with
  | nil => simp
  | cons w rest ih =>
    have hw := h.offerTo_channels m event w
    have hd : (offerTo m event b w).Distinct :=
      h.of_map (fun c => by split <;> simp) hw
    rw [List.nodup_cons] at hn
    rw [List.foldl_cons, ih hd hn.2, hw, List.map_map]
    apply List.map_congr_left
    intro c _
    by_cases hc : c.serial = w
    · subst hc
      simp [hn.1]
    · simp [hc]

/-! ## Firing one rule -/

/-- The registered incarnation that a rule fires into. -/
def firing? (b : Broker) (rule : ArmedRule) : Option Queue :=
  (b.registry.get? rule.target).filter (!·.retired)

theorem firing?_eq_some_iff {b : Broker} {rule : ArmedRule} {q : Queue} :
    b.firing? rule = some q ↔ b.registry.get? rule.target = some q ∧ q.retired = false := by
  simp [firing?, Option.filter_eq_some_iff]

theorem deliver_eq (b : Broker) (rule : ArmedRule) (q : Queue) (m : Moment) :
    b.deliver rule q m = { b with
      registry := b.registry.update q.serial fun q => { q with delivered := q.delivered + 1 }
      channels := (b.deliver rule q m).channels
      gateway := (b.deliver rule q m).gateway
      metrics := (b.deliver rule q m).metrics } := by
  have h := foldl_offerTo_eq m (delivery rule q.id m.now)
    (b.updateQueue q.serial fun q => { q with delivered := q.delivered + 1 }) q.published
  simp only [deliver]
  rw [h]
  rfl

theorem Distinct.deliver_channels {b : Broker} (h : b.Distinct) (rule : ArmedRule) (q : Queue)
    (m : Moment) (hn : q.published.Nodup) :
    (b.deliver rule q m).channels = b.channels.map fun c =>
      if c.serial ∈ q.published then c.offered m.mono (delivery rule q.id m.now) else c := by
  have hd : (b.updateQueue q.serial fun q => { q with delivered := q.delivered + 1 }).Distinct := h
  exact hd.foldl_offerTo_channels m (delivery rule q.id m.now) hn

theorem fire_of_firing? {b : Broker} {rule : ArmedRule} {q : Queue}
    (h : b.firing? rule = some q) (m : Moment) :
    b.fire rule m =
      (b.updateQueue rule.target (·.subPending 1)).deliver rule (q.subPending 1) m := by
  obtain ⟨hq, hr⟩ := firing?_eq_some_iff.mp h
  have hg : (b.updateQueue rule.target (·.subPending 1)).registry.get? rule.target =
      some (q.subPending 1) := by
    rw [updateQueue, Registry.get?_update, if_pos rfl, hq]
    rfl
  unfold fire
  simp only [hg]
  rw [if_neg (by simp [Queue.subPending, hr])]

theorem fire_of_not_firing? {b : Broker} {rule : ArmedRule} (h : b.firing? rule = none)
    (m : Moment) :
    b.fire rule m = { b.updateQueue rule.target (·.subPending 1) with
      metrics := (b.fire rule m).metrics } := by
  unfold fire
  cases hq : b.registry.get? rule.target with
  | none =>
    have hg : (b.updateQueue rule.target (·.subPending 1)).registry.get? rule.target = none := by
      rw [updateQueue, Registry.get?_update, if_pos rfl, hq]
      rfl
    simp only [hg]
  | some q =>
    have hg : (b.updateQueue rule.target (·.subPending 1)).registry.get? rule.target =
        some (q.subPending 1) := by
      rw [updateQueue, Registry.get?_update, if_pos rfl, hq]
      rfl
    have hr : q.retired = true := by
      simpa [firing?, hq, Option.filter] using h
    simp only [hg]
    rw [if_pos (by simp [Queue.subPending, hr])]

/-- A rule whose incarnation has been retired is only counted. -/
theorem fire_of_retired {b : Broker} {rule : ArmedRule} {q : Queue}
    (hq : b.registry.get? rule.target = some q) (hr : q.retired = true) (m : Moment) :
    b.fire rule m = { b.updateQueue rule.target (·.subPending 1) with
      metrics := { b.metrics with rulesDropped := b.metrics.rulesDropped + 1 } } := by
  have hg : (b.updateQueue rule.target (·.subPending 1)).registry.get? rule.target =
      some (q.subPending 1) := by
    rw [updateQueue, Registry.get?_update, if_pos rfl, hq]
    rfl
  unfold fire
  simp only [hg]
  rw [if_pos (by simp [Queue.subPending, hr])]
  rfl

/-- A rule that goes nowhere is at most counted as dropped. -/
theorem fire_metrics_of_not_firing? {b : Broker} {rule : ArmedRule} (h : b.firing? rule = none)
    (m : Moment) : (b.fire rule m).metrics =
      { b.metrics with rulesDropped := (b.fire rule m).metrics.rulesDropped } := by
  cases hq : b.registry.get? rule.target with
  | none =>
    have hg : (b.updateQueue rule.target (·.subPending 1)).registry.get? rule.target = none := by
      rw [updateQueue, Registry.get?_update, if_pos rfl, hq]
      rfl
    unfold fire
    simp only [hg]
    rfl
  | some q =>
    have hr : q.retired = true := by simpa [firing?, hq, Option.filter] using h
    rw [fire_of_retired hq hr]

/-- The event goes to the subscribers of its category, whatever channels there are. -/
theorem fire_gateway {b : Broker} {rule : ArmedRule} {q : Queue} (h : b.firing? rule = some q)
    (m : Moment) : (b.fire rule m).gateway =
      (b.gateway.publish (delivery rule q.id m.now).category (delivery rule q.id m.now)).2 := by
  rw [fire_of_firing? h]
  simp only [deliver, push]
  rw [foldl_offerTo_eq]
  rfl

theorem fire_eq (b : Broker) (rule : ArmedRule) (m : Moment) :
    b.fire rule m = { b with
      registry := (b.fire rule m).registry
      channels := (b.fire rule m).channels
      gateway := (b.fire rule m).gateway
      metrics := (b.fire rule m).metrics } := by
  cases h : b.firing? rule with
  | none =>
    rw [fire_of_not_firing? h]
    rfl
  | some q =>
    rw [fire_of_firing? h, deliver_eq]
    rfl

@[simp] theorem fire_agenda (b : Broker) (rule : ArmedRule) (m : Moment) :
    (b.fire rule m).agenda = b.agenda := by rw [fire_eq]

@[simp] theorem fire_nextChannel (b : Broker) (rule : ArmedRule) (m : Moment) :
    (b.fire rule m).nextChannel = b.nextChannel := by rw [fire_eq]

@[simp] theorem fire_channelCapacity (b : Broker) (rule : ArmedRule) (m : Moment) :
    (b.fire rule m).channelCapacity = b.channelCapacity := by rw [fire_eq]

/-- What firing a rule does to the incarnation it aims at. -/
def settled (q : Queue) : Queue :=
  { q with pending := q.pending - 1, delivered := q.delivered + if q.retired then 0 else 1 }

theorem fire_get? {b : Broker} (h : b.registry.Numbered) (rule : ArmedRule) (m : Moment) (t : Nat) :
    (b.fire rule m).registry.get? t =
      if rule.target = t then (b.registry.get? t).map settled else b.registry.get? t := by
  cases hf : b.firing? rule with
  | none =>
    rw [fire_of_not_firing? hf]
    simp only [updateQueue, Registry.get?_update]
    split
    · next ht =>
      subst ht
      cases hq : b.registry.get? rule.target with
      | none => rfl
      | some q =>
        have hr : q.retired = true := by simpa [firing?, hq, Option.filter] using hf
        simp [Queue.subPending, settled, hr]
    · rfl
  | some q =>
    obtain ⟨hq, hr⟩ := firing?_eq_some_iff.mp hf
    have hs : (q.subPending 1).serial = rule.target := h _ q hq
    rw [fire_of_firing? hf, deliver_eq, hs]
    simp only [updateQueue, Registry.get?_update]
    split
    · next ht =>
      subst ht
      simp [hq, Queue.subPending, settled, hr]
    · rfl

theorem Distinct.fire_channels {b : Broker} (h : b.Distinct) {rule : ArmedRule} {q : Queue}
    (hf : b.firing? rule = some q) (m : Moment) (hn : q.published.Nodup) :
    (b.fire rule m).channels = b.channels.map fun c =>
      if c.serial ∈ q.published then c.offered m.mono (delivery rule q.id m.now) else c := by
  have hd : (b.updateQueue rule.target (·.subPending 1)).Distinct := h
  rw [fire_of_firing? hf]
  exact hd.deliver_channels rule (q.subPending 1) m hn

theorem fire_channels_of_not_firing? {b : Broker} {rule : ArmedRule} (hf : b.firing? rule = none)
    (m : Moment) : (b.fire rule m).channels = b.channels := by
  rw [fire_of_not_firing? hf]
  rfl

end Broker

/-! ## What has fired -/

/-- A rule that fires into a registered incarnation, with the broker that it finds. -/
structure Firing where
  broker : Broker
  moment : Moment
  rule : ArmedRule
  queue : Queue

namespace Firing

/-- What whoever gets it is told: which event fired into which queue, when it was to fire and when
it did. An event without a category is one of its queue. -/
def event (f : Firing) : DeliveredEvent where
  eventId := f.rule.event.id
  queue := f.queue.id
  category := f.rule.event.category.getD f.queue.id
  data := f.rule.event.data
  fireAt := f.rule.fireAt
  firedAt := f.moment.now

theorem event_eq (f : Firing) :
    f.event = Broker.delivery f.rule f.queue.id f.moment.now := rfl

/-- The firing that a deed is, if it is one. -/
def ofDeed? (b : Broker) (d : Deed) : Option Firing :=
  match d.action with
  | .fire rule => (b.firing? rule).map fun q => ⟨b, d.moment, rule, q⟩
  | _ => none

end Firing

/-- What fired in the course of a journal, in firing order. -/
def firings (journal : List (Broker × Deed)) : List Firing :=
  journal.filterMap fun (b, d) => Firing.ofDeed? b d

theorem firings_append (journal journal' : List (Broker × Deed)) :
    firings (journal ++ journal') = firings journal ++ firings journal' := List.filterMap_append

end EventBroker
