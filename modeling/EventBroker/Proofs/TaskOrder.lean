import EventBroker.Proofs.Conservation
import EventBroker.Proofs.IdleReaping
import EventBroker.Proofs.Rest

/-! # The driver and the reapers in either order

Reaping takes channels out and firing puts events into those that are there. Firing touches no
channel, so it makes none less idle; and a channel that is taken out afterwards takes with it what
it got. `Broker.Thinned` says that a broker is another one without some idle channels. It outlasts
whatever fires in both (`Thinned.fire`), so reaping before and reaping after leave brokers that are
the same one thinned out. All that can tell them apart is how many events found a channel full, and
whether the gauge of buffered events was ever touched.
-/
set_option autoImplicit false

namespace EventBroker

/-- What is counted apart from the buffers of channels. -/
def Metrics.besideBuffers (x : Metrics) : Metrics :=
  { x with overflowDropped := 0, buffered := 0, bufferedGauge := none }

theorem Metrics.besideBuffers_release (x : Metrics) (n : Nat) :
    (x.release n).besideBuffers = x.besideBuffers := by
  rw [release_eq]
  rfl

/-- Counting is the same for counts that are the same. -/
theorem Metrics.besideBuffers_fire {x y : Metrics} (h : x.besideBuffers = y.besideBuffers)
    (pushed dropped late : Nat) :
    (({ x with
      streamPushed := x.streamPushed + pushed
      streamDropped := x.streamDropped + dropped }).fire late).besideBuffers =
    (({ y with
      streamPushed := y.streamPushed + pushed
      streamDropped := y.streamDropped + dropped }).fire late).besideBuffers := by
  simp only [besideBuffers, mk.injEq, fire] at h ⊢
  simp [h]

/-- Beside the buffers there are their accounts, of which one is how much is held. -/
theorem Metrics.eq_of_besideBuffers {x y : Metrics} (h : y.besideBuffers = x.besideBuffers)
    (hb : y.buffered = x.buffered) : y = { x with
      overflowDropped := y.overflowDropped
      bufferedGauge := y.bufferedGauge } := by
  cases x
  cases y
  simp only [besideBuffers, mk.injEq] at h hb ⊢
  simp [h, hb]

theorem Queue.without_congr {gone gone' : List Nat} (h : ∀ n, n ∈ gone ↔ n ∈ gone') (q : Queue) :
    q.without gone = q.without gone' := by
  simp only [without, h]

theorem Channel.after_lastTouched (b : Broker) (m : Moment) (rule : ArmedRule) (c : Channel) :
    (c.after b ⟨m, .fire rule⟩).lastTouched = c.lastTouched := by
  simp only [after]
  split
  · split
    · rw [offered_eq]
    · rfl
  · rfl

namespace Broker

variable {gone gone' : Nat → Bool} {b b' b'' : Broker} {rule : ArmedRule} {m : Moment}

/-! ## What firing counts -/

theorem offerTo_besideBuffers (m : Moment) (event : DeliveredEvent) (b : Broker) (watcher : Nat) :
    (offerTo m event b watcher).metrics.besideBuffers = b.metrics.besideBuffers := by
  unfold offerTo
  split
  · rfl
  · split <;> rfl

theorem foldl_offerTo_besideBuffers (m : Moment) (event : DeliveredEvent) (b : Broker)
    (watchers : List Nat) : (watchers.foldl (offerTo m event) b).metrics.besideBuffers =
      b.metrics.besideBuffers := by
  induction watchers generalizing b with
  | nil => rfl
  | cons w rest ih => rw [List.foldl_cons, ih, offerTo_besideBuffers]

/-- A rule that fires is counted, and so is what became of its event among the subscribers. -/
theorem fire_besideBuffers {q : Queue} (h : b.firing? rule = some q) (m : Moment) :
    let event := delivery rule q.id m.now
    let tally := (b.gateway.publish event.category event).1
    (b.fire rule m).metrics.besideBuffers = (({ b.metrics with
      streamPushed := b.metrics.streamPushed + tally.taken
      streamDropped := b.metrics.streamDropped + tally.lost }).fire
        (m.now - rule.fireAt)).besideBuffers := by
  intro event tally
  rw [fire_of_firing? h]
  simp only [deliver, push]
  rw [foldl_offerTo_eq]
  exact Metrics.besideBuffers_fire (foldl_offerTo_besideBuffers m event _ q.published) _ _ _

/-- A rule that goes nowhere is counted as dropped if its incarnation is on record. -/
theorem fire_besideBuffers_of_not_firing? (h : b.firing? rule = none) (m : Moment) :
    (b.fire rule m).metrics.besideBuffers = { b.metrics.besideBuffers with
      rulesDropped := b.metrics.besideBuffers.rulesDropped +
        if (b.registry.get? rule.target).isSome then 1 else 0 } := by
  cases hq : b.registry.get? rule.target with
  | none =>
    have hg : (b.updateQueue rule.target (·.subPending 1)).registry.get? rule.target = none := by
      rw [updateQueue, Registry.get?_update, if_pos rfl, hq]
      rfl
    unfold fire
    simp only [hg]
    rfl
  | some q =>
    have hr : q.retired = true := by simpa [firing?, hq, Option.filter] using h
    rw [fire_of_retired hq hr]
    rfl

/-! ## Brokers without some channels -/

/-- The second broker is the first without the channels that were touched last at certain times, up
to what is counted of the buffers. -/
structure Thinned (gone : Nat → Bool) (b b' : Broker) : Prop where
  queues : b'.registry.queues =
    b.registry.queues.map (Queue.without ((b.roll.filter (gone ·.2)).map (·.1)))
  channels : b'.channels = b.channels.filter (!gone ·.lastTouched)
  nextChannel : b'.nextChannel = b.nextChannel
  agenda : b'.agenda = b.agenda
  gateway : b'.gateway = b.gateway
  channelCapacity : b'.channelCapacity = b.channelCapacity
  maxTick : b'.maxTick = b.maxTick
  wakeup : b'.wakeup = b.wakeup
  metrics : b'.metrics.besideBuffers = b.metrics.besideBuffers

namespace Thinned

theorem refl (b : Broker) : Thinned (fun _ => false) b b where
  queues := by
    rw [List.filter_false, List.map_nil]
    exact ((List.map_congr_left fun q _ => q.without_nil).trans (List.map_id _)).symm
  channels := (List.filter_true _).symm
  nextChannel := rfl
  agenda := rfl
  gateway := rfl
  channelCapacity := rfl
  maxTick := rfl
  wakeup := rfl
  metrics := rfl

theorem roll (h : Thinned gone b b') : b'.roll = b.roll.filter (!gone ·.2) := by
  rw [Broker.roll, h.channels, Broker.roll, List.filter_map]
  rfl

/-- Channels may be taken out in several goes. -/
theorem trans (h : Thinned gone b b') (h' : Thinned gone' b' b'') :
    Thinned (fun t => gone t || gone' t) b b'' where
  queues := by
    rw [h'.queues, h.queues, List.map_map, h.roll]
    refine List.map_congr_left fun q _ => ?_
    rw [Function.comp_apply, Queue.without_without]
    refine Queue.without_congr (fun n => ?_) q
    simp only [List.mem_append, List.mem_map, List.mem_filter, Bool.or_eq_true, Bool.not_eq_true']
    constructor
    · rintro (⟨e, ⟨he, hg⟩, rfl⟩ | ⟨e, ⟨⟨he, -⟩, hg⟩, rfl⟩)
      · exact ⟨e, ⟨he, .inl hg⟩, rfl⟩
      · exact ⟨e, ⟨he, .inr hg⟩, rfl⟩
    · rintro ⟨e, ⟨he, hg⟩, rfl⟩
      cases hfirst : gone e.2 with
      | true => exact .inl ⟨e, ⟨he, hfirst⟩, rfl⟩
      | false => exact .inr ⟨e, ⟨⟨he, hfirst⟩, by simpa [hfirst] using hg⟩, rfl⟩
  channels := by
    rw [h'.channels, h.channels, List.filter_filter]
    refine List.filter_congr fun c _ => ?_
    rw [Bool.not_or, Bool.and_comm]
  nextChannel := h'.nextChannel.trans h.nextChannel
  agenda := h'.agenda.trans h.agenda
  gateway := h'.gateway.trans h.gateway
  channelCapacity := h'.channelCapacity.trans h.channelCapacity
  maxTick := h'.maxTick.trans h.maxTick
  wakeup := h'.wakeup.trans h.wakeup
  metrics := h'.metrics.trans h.metrics

/-- Reaping takes out what is idle. -/
theorem reap (hl : b.Linked) (timeout : Nat) (m : Moment) :
    Thinned (fun t => timeout ≤ m.now - t) b (b.reap timeout m).2 := by
  have he : (b.reap timeout m).2 = b.without (·.isIdle m.now timeout) :=
    hl.foldl_closeChannel_eq_without _
  rw [he]
  refine ⟨?_, rfl, rfl, rfl, rfl, rfl, rfl, rfl, Metrics.besideBuffers_release _ _⟩
  rw [Broker.roll, List.filter_map, List.map_map]
  rfl

/-! ## Firing -/

/-- A rule fires into the same incarnation, whoever watches it. -/
theorem firing? (h : Thinned gone b b') (rule : ArmedRule) : b'.firing? rule =
    (b.firing? rule).map (Queue.without ((b.roll.filter (gone ·.2)).map (·.1))) := by
  rw [Broker.firing?, Broker.firing?, Registry.get?, Registry.get?, h.queues, List.getElem?_map]
  cases hq : b.registry.queues[rule.target]? with
  | none => rfl
  | some q => cases hr : q.retired <;> simp [Option.filter, Queue.without, hr]

/-- A channel that is left gets what it would get beside the others. -/
theorem after_eq (h : Thinned gone b b') (rule : ArmedRule) (m : Moment) :
    Channel.after b' ⟨m, .fire rule⟩ = Channel.after b ⟨m, .fire rule⟩ := by
  funext c
  simp only [Channel.after, h.firing? rule]
  cases b.firing? rule <;> rfl

theorem fire (h : Thinned gone b b') (hl : b.Linked) (hl' : b'.Linked) (rule : ArmedRule)
    (m : Moment) : Thinned gone (b.fire rule m) (b'.fire rule m) where
  queues := by
    have hspares : ∀ d ∈ [(⟨m, .fire rule⟩ : Deed)], d.action.sparesRoll = true := by
      simp [Action.sparesRoll]
    have hroll : (b.fire rule m).roll = b.roll := hl.roll_replay hspares
    rw [hroll]
    refine List.ext_getElem? fun t => ?_
    have hfired := fire_get? hl.numbered rule m t
    have hfired' := fire_get? hl'.numbered rule m t
    simp only [Registry.get?] at hfired hfired'
    rw [List.getElem?_map, hfired, hfired', h.queues, List.getElem?_map]
    cases b.registry.queues[t]? with
    | none => simp
    | some q => split <;> rfl
  channels := by
    rw [hl'.fire_channels, hl.fire_channels, h.channels, List.filter_map, h.after_eq]
    congr 2
    funext c
    simp only [Function.comp_apply, Channel.after_lastTouched]
  nextChannel := by rw [fire_nextChannel, fire_nextChannel, h.nextChannel]
  agenda := by rw [fire_agenda, fire_agenda, h.agenda]
  gateway := by
    have hfiring := h.firing? rule
    cases hq : b.firing? rule with
    | none =>
      rw [hq] at hfiring
      rw [fire_of_not_firing? hq, fire_of_not_firing? hfiring]
      exact h.gateway
    | some q =>
      rw [hq] at hfiring
      rw [fire_gateway hq, fire_gateway hfiring, h.gateway]
      rfl
  channelCapacity := by rw [fire_channelCapacity, fire_channelCapacity, h.channelCapacity]
  maxTick := by
    rw [fire_eq b', fire_eq b]
    exact h.maxTick
  wakeup := by
    rw [fire_eq b', fire_eq b]
    exact h.wakeup
  metrics := by
    have hfiring := h.firing? rule
    cases hq : b.firing? rule with
    | none =>
      rw [hq] at hfiring
      have hknown : (b'.registry.get? rule.target).isSome = (b.registry.get? rule.target).isSome := by
        rw [Registry.get?, Registry.get?, h.queues, List.getElem?_map, Option.isSome_map]
      rw [fire_besideBuffers_of_not_firing? hq, fire_besideBuffers_of_not_firing? hfiring,
        h.metrics, hknown]
    | some q =>
      rw [hq] at hfiring
      rw [fire_besideBuffers hq, fire_besideBuffers hfiring, h.gateway]
      exact Metrics.besideBuffers_fire h.metrics _ _ _

theorem fires (h : Thinned gone b b') (hl : b.Linked) (hl' : b'.Linked) (rules : List ArmedRule)
    (m : Moment) : Thinned gone (rules.foldl (fun b rule => b.fire rule m) b)
      (rules.foldl (fun b rule => b.fire rule m) b') := by
  induction rules generalizing b b' with
  | nil => exact h
  | cons rule rest ih =>
    exact ih (h.fire hl hl' rule m) (hl.perform ⟨m, .fire rule⟩) (hl'.perform ⟨m, .fire rule⟩)

/-- The same is due, and what fires leaves the broker as thin as it was. -/
theorem fireDue (h : Thinned gone b b') (hl : b.Linked) (hl' : b'.Linked) (now : Nat)
    (m : Moment) : (b'.fireDue now m).1 = (b.fireDue now m).1 ∧
      Thinned gone (b.fireDue now m).2 (b'.fireDue now m).2 := by
  have hdue : (b'.popDue now).1 = (b.popDue now).1 :=
    congrArg (fun a => (a.popDue now).1) h.agenda
  have hpopped : Thinned gone (b.popDue now).2 (b'.popDue now).2 :=
    { h with agenda := congrArg (fun a => (a.popDue now).2) h.agenda }
  have hfires := hpopped.fires (hl.perform ⟨m, .popDue now⟩) (hl'.perform ⟨m, .popDue now⟩)
    (b.popDue now).1 m
  rw [fireDue_eq, fireDue_eq, hdue]
  exact ⟨rfl, hfires⟩

end Thinned

/-- Firing leaves the same channels idle. -/
theorem Linked.idle_fire (h : b.Linked) (gone : Nat → Bool) (rule : ArmedRule) (m : Moment) :
    ((b.fire rule m).channels.filter (gone ·.lastTouched)).map (·.id) =
      (b.channels.filter (gone ·.lastTouched)).map (·.id) := by
  rw [h.fire_channels, List.filter_map, List.map_map]
  refine (List.map_congr_left fun c _ => (Channel.of_bare (Channel.after_bare b _ c)).2.1).trans ?_
  congr 2
  funext c
  simp only [Function.comp_apply, Channel.after_lastTouched]

theorem Linked.idle_fireDue (h : b.Linked) (gone : Nat → Bool) (now : Nat) (m : Moment) :
    ((b.fireDue now m).2.channels.filter (gone ·.lastTouched)).map (·.id) =
      (b.channels.filter (gone ·.lastTouched)).map (·.id) := by
  have hfires : ∀ (rules : List ArmedRule) {b : Broker}, b.Linked →
      ((rules.foldl (fun b rule => b.fire rule m) b).channels.filter (gone ·.lastTouched)).map
        (·.id) = (b.channels.filter (gone ·.lastTouched)).map (·.id) := by
    intro rules
    induction rules with
    | nil => exact fun _ => rfl
    | cons rule rest ih =>
      intro b h
      exact (ih (h.perform ⟨m, .fire rule⟩)).trans (h.idle_fire gone rule m)
  exact hfires _ (h.perform ⟨m, .popDue now⟩)

/-! ## What cannot be told apart -/

/-- Two brokers that differ at most in how many events are counted as lost to full channels, and in
the gauge of buffered events; an untouched gauge stands for zero. -/
structure SameButLosses (b b' : Broker) : Prop where
  eq : b' = { b with metrics := { b.metrics with
    overflowDropped := b'.metrics.overflowDropped
    bufferedGauge := b'.metrics.bufferedGauge } }
  gauge : b'.metrics.bufferedGauge.getD 0 = b.metrics.bufferedGauge.getD 0

/-- Where the same channels are taken out and the counts are right, the same is left. -/
theorem Thinned.same {x y : Broker} (hx : Thinned gone b x) (hy : Thinned gone b y)
    (hcx : x.Counted) (hcy : y.Counted) : x.SameButLosses y := by
  have hheld : y.inBuffers = x.inBuffers := by rw [inBuffers, inBuffers, hx.channels, hy.channels]
  refine ⟨?_, by rw [hcx.gauge, hcy.gauge, hheld]⟩
  have hbuffered : y.metrics.buffered = x.metrics.buffered := by
    rw [hcx.buffered, hcy.buffered, hheld]
  have hmetrics : y.metrics = { x.metrics with
      overflowDropped := y.metrics.overflowDropped
      bufferedGauge := y.metrics.bufferedGauge } :=
    Metrics.eq_of_besideBuffers (hy.metrics.trans hx.metrics.symm) hbuffered
  have hregistry : y.registry = x.registry :=
    congrArg Registry.mk (hy.queues.trans hx.queues.symm)
  calc y
      = ⟨y.registry, y.channels, y.nextChannel, y.agenda, y.gateway, y.channelCapacity, y.maxTick,
          y.wakeup, y.metrics⟩ := rfl
    _ = _ := by
      rw [hregistry, hy.channels, hy.nextChannel, hy.agenda, hy.gateway, hy.channelCapacity,
        hy.maxTick, hy.wakeup, hmetrics, ← hx.channels, ← hx.nextChannel, ← hx.agenda, ← hx.gateway,
        ← hx.channelCapacity, ← hx.maxTick, ← hx.wakeup]

/-- The counts stay right, whatever is done. -/
theorem Counted.replay (h : b.Counted) (hl : b.Linked) (deeds : List Deed) :
    (b.replay deeds).Counted := (replay_booked hl h deeds).counted

/-- A tick before reaping and a tick after it. -/
theorem Linked.fireDue_reap (hl : b.Linked) (h : b.Counted) (now timeout : Nat) (m : Moment) :
    ((b.reap timeout m).2.fireDue now m).1 = (b.fireDue now m).1 ∧
      ((b.fireDue now m).2.reap timeout m).1 = (b.reap timeout m).1 ∧
      SameButLosses ((b.fireDue now m).2.reap timeout m).2
        ((b.reap timeout m).2.fireDue now m).2 := by
  have hreaped := hl.distinct.replay_reapDeeds timeout m
  have hfired := b.replay_fireDeeds now m
  have hlr : (b.reap timeout m).2.Linked := hreaped ▸ hl.replay _
  have hlf : (b.fireDue now m).2.Linked := hfired ▸ hl.replay _
  have hcr : (b.reap timeout m).2.Counted := hreaped ▸ h.replay hl _
  have hcf : (b.fireDue now m).2.Counted := hfired ▸ h.replay hl _
  obtain ⟨hcount, hafter⟩ := (Thinned.reap hl timeout m).fireDue hl hlr now m
  have hbefore := Thinned.reap hlf timeout m
  refine ⟨hcount, hl.idle_fireDue (fun t => timeout ≤ m.now - t) now m,
    hbefore.same hafter ?_ ?_⟩
  · rw [← hlf.distinct.replay_reapDeeds]
    exact hcf.replay hlf _
  · rw [← replay_fireDeeds]
    exact hcr.replay hlr _

end Broker

/-! ## The tasks of a session -/

namespace Session

open Broker

variable {gone : Nat → Bool} {b b' : Broker} {s found : Session}

theorem thinned_driverRound (h : Thinned gone b b') (hl : b.Linked) (hl' : b'.Linked)
    (m : Moment) : (driverRound b' m).1 = (driverRound b m).1 ∧
      Thinned gone (driverRound b m).2 (driverRound b' m).2 := by
  rw [driverRound_plan, driverRound_plan, h.agenda, h.maxTick]
  exact ⟨rfl, (h.fireDue hl hl' m.now m).2⟩

theorem thinned_driverRun (h : Thinned gone b b') (hl : b.Linked) (hl' : b'.Linked) (m : Moment) :
    (driverRun b' m).1 = (driverRun b m).1 ∧
      Thinned gone (driverRun b m).2 (driverRun b' m).2 := by
  obtain ⟨hplan, hfired⟩ := thinned_driverRound h hl hl' m
  have hlinked : (driverRound b m).2.Linked := driverRound_broker b m ▸ hl.replay _
  have hlinked' : (driverRound b' m).2.Linked := driverRound_broker b' m ▸ hl'.replay _
  unfold driverRun
  cases hw : (driverRound b m).2.wakeup with
  | false =>
    have hw' := hfired.wakeup.trans hw
    simp only [hw, hw', Bool.false_eq_true, if_false]
    exact ⟨hplan, hfired⟩
  | true =>
    have hw' := hfired.wakeup.trans hw
    simp only [hw, hw', if_true]
    have hnoted : Thinned gone { (driverRound b m).2 with wakeup := false }
        { (driverRound b' m).2 with wakeup := false } := { hfired with wakeup := rfl }
    exact thinned_driverRound hnoted (hlinked.perform ⟨m, .wake⟩) (hlinked'.perform ⟨m, .wake⟩) m

/-- One turn of the driver: when it wakes up next, and the broker that it leaves. -/
def driverTurn (m : Moment) (driver : Option Nat) (b : Broker) : Option Nat × Broker :=
  match driver with
  | none => (none, b)
  | some deadline =>
    if b.wakeup || deadline ≤ m.mono then (some (driverRun b m).1, (driverRun b m).2)
    else (some deadline, b)

theorem runDriver_eq_driverTurn (s : Session) : s.runDriver = { s with
    driver := (driverTurn s.moment s.driver s.broker).1
    broker := (driverTurn s.moment s.driver s.broker).2 } := by
  unfold runDriver driverTurn
  cases hd : s.driver with
  | none => cases s; cases hd; rfl
  | some deadline =>
    simp only
    split
    · rfl
    · cases s; cases hd; rfl

theorem thinned_driverTurn (h : Thinned gone b b') (hl : b.Linked) (hl' : b'.Linked) (m : Moment)
    (driver : Option Nat) : (driverTurn m driver b').1 = (driverTurn m driver b).1 ∧
      Thinned gone (driverTurn m driver b).2 (driverTurn m driver b').2 := by
  unfold driverTurn
  cases driver with
  | none => exact ⟨rfl, h⟩
  | some deadline =>
    simp only [h.wakeup]
    split
    · obtain ⟨hplan, hrun⟩ := thinned_driverRun h hl hl' m
      exact ⟨congrArg some hplan, hrun⟩
    · exact ⟨rfl, h⟩

/-- A reaper whose turn it is takes out what is idle for it. -/
theorem thinned_reaperRun (hl : b.Linked) (m : Moment) (r : Reaper) :
    Thinned (fun t => spent m t r) b (reaperRun m r b).2 := by
  unfold reaperRun spent Reaper.isDue
  cases r.next with
  | none => exact .refl b
  | some next =>
    simp only [Option.any_some]
    split
    · next hdue =>
      simp only [hdue, decide_true, Bool.true_and]
      exact .reap hl r.timeout m
    · next hdue =>
      simp only [hdue, decide_false, Bool.false_and]
      exact .refl b

theorem thinned_reapers (hl : b.Linked) (m : Moment) (reapers : List Reaper) :
    Thinned (fun t => reapers.any (spent m t)) b
      (reapers.foldl (fun b r => (reaperRun m r b).2) b) := by
  induction reapers generalizing b with
  | nil => exact .refl b
  | cons r rest ih => exact (thinned_reaperRun hl m r).trans (ih (linked_reaperRun hl m r))

/-- The driver may take its turn before the reapers or after them. -/
theorem runDriver_runReapers (hl : s.broker.Linked) (h : s.broker.Counted) :
    s.runReapers.runDriver =
      { s.runDriver.runReapers with broker := s.runReapers.runDriver.broker } ∧
    s.runDriver.runReapers.broker.SameButLosses s.runReapers.runDriver.broker := by
  have hdriven : s.runDriver.broker.Linked ∧ s.runDriver.broker.Counted := by
    rw [runDriver_broker]
    exact ⟨hl.replay _, h.replay hl _⟩
  have hreaped : s.runReapers.broker.Linked ∧ s.runReapers.broker.Counted := by
    rw [runReapers_broker hl]
    exact ⟨hl.replay _, h.replay hl _⟩
  -- The reapers thin out the broker that the driver leaves as they do the one that it finds.
  have hbefore : Thinned (fun t => s.reapers.any (spent s.moment t)) s.runDriver.broker
      s.runDriver.runReapers.broker := by
    rw [runReapers_eq, runDriver_moment, runDriver_eq]
    exact thinned_reapers hdriven.1 s.moment s.reapers
  have hthin : Thinned (fun t => s.reapers.any (spent s.moment t)) s.broker
      s.runReapers.broker := by
    rw [runReapers_eq]
    exact thinned_reapers hl s.moment s.reapers
  obtain ⟨hplan, hafter⟩ := thinned_driverTurn hthin hl hreaped.1 s.moment s.driver
  have hdriver : s.runReapers.runDriver.driver = s.runDriver.driver := by
    rw [runDriver_eq_driverTurn, runDriver_eq_driverTurn s, runReapers_eq]
    rw [runReapers_eq] at hplan
    exact hplan
  have hbroker : s.runReapers.runDriver.broker =
      (driverTurn s.moment s.driver s.runReapers.broker).2 := by
    rw [runDriver_eq_driverTurn, runReapers_eq]
  have hdriven' : s.runDriver.broker = (driverTurn s.moment s.driver s.broker).2 := by
    rw [runDriver_eq_driverTurn]
  refine ⟨?_, (hdriven' ▸ hbefore).same (hbroker ▸ hafter) ?_ ?_⟩
  · rw [runDriver_eq s.runReapers, hdriver, runReapers_eq, runReapers_eq s.runDriver, runDriver_eq s]
  · rw [runReapers_broker hdriven.1]
    exact hdriven.2.replay hdriven.1 _
  · rw [runDriver_broker]
    exact hreaped.2.replay hreaped.1 _

/-! ## Every reachable broker -/

theorem Reachable.counted {s : Session} (h : s.Reachable) : s.broker.Counted := by
  obtain ⟨supply, settings, b, m, steps, answers, hb, hr⟩ := h
  have hl : (Session.new supply b m).broker.Linked := Broker.Linked.new hb
  rw [run_replays hl hr]
  exact (Counted.new hb).replay hl _

theorem replays_of_mem_passBeats {n : Nat} (hl : s.broker.Linked) (hf : found ∈ passBeats n s) :
    ∃ deeds, found.broker = s.broker.replay deeds := by
  induction n generalizing s with
  | zero => cases hf
  | succ n ih =>
    rw [passBeats, List.mem_cons] at hf
    rcases hf with rfl | hf
    · exact ⟨[], rfl⟩
    · split at hf
      · next mid hs =>
        have hmid := settle_replays (s := { s with moment := s.moment.after 1 }) hl hs
        obtain ⟨deeds, hd⟩ := ih (hmid ▸ hl.replay _) hf
        exact ⟨_, by rw [hd, hmid, ← Broker.replay_append]⟩
      · cases hf

/-- What the tasks find has come about by deeds. -/
theorem replays_of_mem_beats {x : Step} (hl : s.broker.Linked) (hf : found ∈ s.beats x) :
    ∃ deeds, found.broker = s.broker.replay deeds := by
  rw [beats, List.mem_append] at hf
  rcases hf with hf | hf
  · cases x with
    | advance ms =>
      rw [innerBeats] at hf
      split at hf
      · exact replays_of_mem_passBeats hl hf
      · cases hf
    | _ => cases hf
  · split at hf
    · next ha =>
      rw [List.mem_singleton.mp hf]
      exact ⟨_, acted_replays hl ha⟩
    · cases hf

/-- A tick and reaping may swap places. In every reachable state, whatever the times and however
the clocks stand, firing what is due and then reaping does what reaping and then firing does: as
many rules are popped, the same channels are reaped, and the broker that is left is the same but for
the count of events that found a channel full. Also the sum of buffered events is the same, and its
gauge shows the same, if an untouched one stands for zero.

So of the tasks that are run in the course of a step, it does not matter whether the driver or the
reapers have their turn first: the driver sleeps as long, and the brokers are the same in the same
way. -/
theorem tick_and_reap_commute {s : Session} (hs : s.Reachable) :
    (∀ (now timeout : Nat) (m : Moment),
      let fired := s.broker.fireDue now m
      let reaped := s.broker.reap timeout m
      (reaped.2.fireDue now m).1 = fired.1 ∧
      (fired.2.reap timeout m).1 = reaped.1 ∧
      (fired.2.reap timeout m).2.SameButLosses (reaped.2.fireDue now m).2) ∧
    ∀ (x : Step) (found : Session), found ∈ s.beats x →
      found.runReapers.runDriver =
        { found.runDriver.runReapers with broker := found.runReapers.runDriver.broker } ∧
      found.runDriver.runReapers.broker.SameButLosses found.runReapers.runDriver.broker := by
  refine ⟨fun now timeout m => hs.linked.fireDue_reap hs.counted now timeout m,
    fun x found hf => ?_⟩
  obtain ⟨deeds, hd⟩ := replays_of_mem_beats hs.linked hf
  exact runDriver_runReapers (hd ▸ hs.linked.replay deeds) (hd ▸ hs.counted.replay hs.linked deeds)

/-- Two channels are full when an event is due, and one of them is idle then. -/
def reaping : List Step :=
  [.startDriver, .startReaper 5 5, .createQueue "jobs", .createChannel ["jobs"] ⟨1000, 10⟩,
    .advance 2, .createChannel ["jobs"] ⟨1000, 10⟩, .submit ⟨[65], none, [⟨"jobs", 0, none⟩]⟩,
    .submit ⟨[66], none, [⟨"jobs", 5, none⟩]⟩, .advance 2]

theorem tick_and_reap_commute_once : ∃ b answers s,
    Broker.new { channelCapacity := 1 } = .ok b ∧
    (Session.new .counting b ⟨0, 0⟩).run reaping = .ok (answers, s) ∧
    (s.broker.fireDue 5 ⟨5, 5⟩).1 = 1 ∧ (s.broker.reap 5 ⟨5, 5⟩).1.length = 1 ∧
    ((s.broker.fireDue 5 ⟨5, 5⟩).2.reap 5 ⟨5, 5⟩).2.metrics.overflowDropped = 2 ∧
    ((s.broker.reap 5 ⟨5, 5⟩).2.fireDue 5 ⟨5, 5⟩).2.metrics.overflowDropped = 1 ∧
    ((s.broker.fireDue 5 ⟨5, 5⟩).2.reap 5 ⟨5, 5⟩).2.SameButLosses
      ((s.broker.reap 5 ⟨5, 5⟩).2.fireDue 5 ⟨5, 5⟩).2 ∧
    ∃ found ∈ s.beats (.advance 1), found.moment = ⟨5, 5⟩ ∧
      found.runDriver.runReapers.broker.metrics.overflowDropped = 2 ∧
      found.runReapers.runDriver.broker.metrics.overflowDropped = 1 ∧
      found.runDriver.runReapers.broker.SameButLosses found.runReapers.runDriver.broker := by
  obtain ⟨b, hb⟩ : ∃ b, Broker.new { channelCapacity := 1 } = .ok b := ⟨_, rfl⟩
  obtain ⟨answers, s, hr, hp⟩ := of_endsWith
    (r := (Session.new .counting b ⟨0, 0⟩).run reaping)
    (p := fun _ s => (s.broker.fireDue 5 ⟨5, 5⟩).1 == 1 &&
      (s.broker.reap 5 ⟨5, 5⟩).1.length == 1 &&
      ((s.broker.fireDue 5 ⟨5, 5⟩).2.reap 5 ⟨5, 5⟩).2.metrics.overflowDropped == 2 &&
      ((s.broker.reap 5 ⟨5, 5⟩).2.fireDue 5 ⟨5, 5⟩).2.metrics.overflowDropped == 1 &&
      s.isWaiting && s.moment.after 1 == ⟨5, 5⟩ &&
      { s with moment := s.moment.after 1 }.runDriver.runReapers.broker.metrics.overflowDropped
        == 2 &&
      { s with moment := s.moment.after 1 }.runReapers.runDriver.broker.metrics.overflowDropped
        == 1) (by cases hb; decide +kernel)
  simp only [Bool.and_eq_true, beq_iff_eq] at hp
  obtain ⟨⟨⟨⟨⟨⟨⟨hcount, hreaped⟩, hlost⟩, hspared⟩, hwaiting⟩, hmoment⟩, hlost'⟩, hspared'⟩ := hp
  have hfound : { s with moment := s.moment.after 1 } ∈ s.beats (.advance 1) := by
    simp [beats, innerBeats, hwaiting, passBeats]
  obtain ⟨hticks, htasks⟩ := tick_and_reap_commute ⟨_, _, b, _, _, _, hb, hr⟩
  exact ⟨b, answers, s, hb, hr, hcount, hreaped, hlost, hspared, (hticks 5 5 ⟨5, 5⟩).2.2, _, hfound,
    hmoment, hlost', hspared', (htasks (.advance 1) _ hfound).2⟩

end Session

end EventBroker
