import EventBroker.Proofs.Firing

/-! # What deeds leave alone

Each operation is written as a change of the fields that it touches, for example `createChannel_eq`.
The capacities never change. Few actions touch the live channels, the agenda, the driver's wake-up
note or the gateway; `Action.sparesChannels`, `Action.sparesAgenda`, `Action.sparesWakeup` and
`Action.sparesGateway` hold of the others.
-/
set_option autoImplicit false

namespace EventBroker

namespace Action

def sparesChannels : Action → Bool
  | .fire _ | .createChannel _ _ _ | .getChannel _ | .dequeue _ | .close _ | .drop => false
  | _ => true

def createsChannel : Action → Bool
  | .createChannel _ _ _ => true
  | _ => false

def sparesAgenda : Action → Bool
  | .cancelFor _ | .arm _ _ _ | .popDue _ | .drop => false
  | _ => true

def sparesWakeup : Action → Bool
  | .arm _ _ _ | .wake => false
  | _ => true

def sparesGateway : Action → Bool
  | .fire _ | .subscribe _ | .unsubscribe _ | .receive _ | .receiveUpTo _ _ | .drop => false
  | _ => true

end Action

/-! ## Taking events off the counts -/

theorem Metrics.release_eq (metrics : Metrics) (n : Nat) : metrics.release n = { metrics with
    buffered := metrics.buffered - n
    bufferedGauge := (metrics.release n).bufferedGauge } := by
  unfold Metrics.release
  split
  · next hn =>
    rw [hn]
    rfl
  · rfl

theorem Metrics.dequeue_eq (metrics : Metrics) (trigger : FlushTrigger) (n : Nat) :
    metrics.dequeue trigger n = { metrics.release n with
      dequeuedBySize := (metrics.dequeue trigger n).dequeuedBySize
      dequeuedByTime := (metrics.dequeue trigger n).dequeuedByTime
      dequeuedByPoll := (metrics.dequeue trigger n).dequeuedByPoll } := by
  unfold Metrics.dequeue
  split
  · next hn =>
    rw [hn]
    rfl
  · cases trigger <;> rfl

theorem Metrics.dequeue_scheduled (metrics : Metrics) (trigger : FlushTrigger) (n : Nat) :
    (metrics.dequeue trigger n).eventsScheduled = metrics.eventsScheduled := by
  rw [Metrics.dequeue_eq, Metrics.release_eq]

namespace Broker

theorem new_eq {settings : BrokerSettings} {b : Broker} (h : Broker.new settings = .ok b) : b = {
    registry := .empty
    channels := []
    nextChannel := 0
    agenda := .empty
    gateway := .new settings.subscriberCapacity
    channelCapacity := settings.channelCapacity
    maxTick := max settings.maxTick 1
    wakeup := false
    metrics := .empty } := by
  unfold Broker.new at h
  split at h
  · cases h
  split at h
  · cases h
  · exact (Except.ok.inj h).symm

/-! ## Operations by the fields they touch -/

theorem createQueue_eq (b : Broker) (id : String) :
    (b.createQueue id).2 = { b with registry := (b.createQueue id).2.registry } := by
  unfold createQueue
  split
  · rfl
  · split <;> rfl

theorem retire_eq (b : Broker) (id : String) :
    (b.retire id).2 = { b with registry := (b.retire id).2.registry } := by
  unfold retire
  split <;> rfl

theorem createChannel_eq (b : Broker) (id : ChannelId) (queues : List String)
    (options : BufferOptions) (m : Moment) :
    (b.createChannel id queues options m).2 = { b with
      registry := (b.createChannel id queues options m).2.registry
      channels := (b.createChannel id queues options m).2.channels
      nextChannel := (b.createChannel id queues options m).2.nextChannel } := by
  unfold createChannel
  split
  · rfl
  split
  · rfl
  split
  · rfl
  · simp only [attach, foldl_updateQueue]

theorem getChannel_eq (b : Broker) (id : ChannelId) (m : Moment) :
    (b.getChannel id m).2 = { b with channels := (b.getChannel id m).2.channels } := by
  unfold getChannel
  split <;> rfl

theorem dequeue_eq (b : Broker) (id : ChannelId) (m : Moment) :
    (b.dequeue id m).2 = { b with
      channels := (b.dequeue id m).2.channels
      metrics := (b.dequeue id m).2.metrics } := by
  unfold dequeue
  split <;> rfl

theorem closeChannel_eq (b : Broker) (c : Channel) :
    b.closeChannel c = { b with
      registry := (b.closeChannel c).registry
      channels := (b.closeChannel c).channels
      metrics := (b.closeChannel c).metrics } := by
  rw [closeChannel, foldl_updateQueue]

theorem closeChannel_metrics (b : Broker) (c : Channel) :
    (b.closeChannel c).metrics = b.metrics.release c.events.size := by
  rw [closeChannel, foldl_updateQueue]

theorem foldl_closeChannel_eq (cs : List Channel) (b : Broker) :
    cs.foldl closeChannel b = { b with
      registry := (cs.foldl closeChannel b).registry
      channels := (cs.foldl closeChannel b).channels
      metrics := (cs.foldl closeChannel b).metrics } := by
  induction cs generalizing b with
  | nil => rfl
  | cons c rest ih => rw [List.foldl_cons, ih, closeChannel_eq]

theorem subscribe_eq {b b' : Broker} {category : String} {s : Subscription}
    (h : b.subscribe category = .ok (s, b')) : b' = b.withGateway b'.gateway := by
  unfold subscribe at h
  cases hg : b.gateway.subscribe category with
  | error e => simp [hg, Except.map] at h
  | ok r =>
    simp only [hg, Except.map, Except.ok.injEq, Prod.mk.injEq] at h
    obtain ⟨-, rfl⟩ := h
    rfl

theorem unsubscribe_eq {b b' : Broker} {s : Subscription} (h : b.unsubscribe s = .ok b') :
    b' = { b with gateway := b'.gateway, metrics := b'.metrics } := by
  unfold unsubscribe at h
  cases hg : b.gateway.unsubscribe s with
  | error e => simp [hg, Except.map] at h
  | ok r =>
    simp only [hg, Except.map, Except.ok.injEq] at h
    subst h
    split <;> rfl

/-! ## Actions by what they spare -/

/-- What an action leaves alone. Whatever is done, the capacities stay. -/
structure Framed (action : Action) (b b' : Broker) : Prop where
  channelCapacity : b'.channelCapacity = b.channelCapacity
  maxTick : b'.maxTick = b.maxTick
  channels : action.sparesChannels = true → b'.channels = b.channels
  nextChannel : action.createsChannel = false → b'.nextChannel = b.nextChannel
  agenda : action.sparesAgenda = true → b'.agenda = b.agenda
  wakeup : action.sparesWakeup = true → b'.wakeup = b.wakeup
  gateway : action.sparesGateway = true → b'.gateway = b.gateway

theorem Framed.refl (action : Action) (b : Broker) : Framed action b b :=
  ⟨rfl, rfl, fun _ => rfl, fun _ => rfl, fun _ => rfl, fun _ => rfl, fun _ => rfl⟩

theorem Framed.of_fields (action : Action) (b : Broker) (registry : Registry)
    (gateway : Gateway DeliveredEvent) (metrics : Metrics)
    (hg : action.sparesGateway = true → gateway = b.gateway) :
    Framed action b { b with registry, gateway, metrics } :=
  ⟨rfl, rfl, fun _ => rfl, fun _ => rfl, fun _ => rfl, fun _ => rfl, hg⟩

theorem perform_framed (b : Broker) (d : Deed) : Framed d.action b (b.perform d) := by
  obtain ⟨m, action⟩ := d
  cases action with
  | createQueue id =>
    simp only [perform]
    rw [createQueue_eq]
    exact .of_fields _ b _ _ _ fun _ => rfl
  | retire id =>
    simp only [perform]
    rw [retire_eq]
    exact .of_fields _ b _ _ _ fun _ => rfl
  | cancelFor target =>
    exact ⟨rfl, rfl, fun _ => rfl, fun _ => rfl, fun h => Bool.noConfusion h, fun _ => rfl,
      fun _ => rfl⟩
  | arm id event targets =>
    exact ⟨rfl, rfl, fun _ => rfl, fun _ => rfl, fun h => Bool.noConfusion h,
      fun h => Bool.noConfusion h, fun _ => rfl⟩
  | popDue now =>
    exact ⟨rfl, rfl, fun _ => rfl, fun _ => rfl, fun h => Bool.noConfusion h, fun _ => rfl,
      fun _ => rfl⟩
  | fire rule =>
    simp only [perform]
    rw [fire_eq]
    exact ⟨rfl, rfl, fun h => Bool.noConfusion h, fun _ => rfl, fun _ => rfl, fun _ => rfl,
      fun h => Bool.noConfusion h⟩
  | createChannel id queues options =>
    simp only [perform]
    rw [createChannel_eq]
    exact ⟨rfl, rfl, fun h => Bool.noConfusion h, fun h => Bool.noConfusion h, fun _ => rfl,
      fun _ => rfl, fun _ => rfl⟩
  | getChannel id =>
    simp only [perform]
    rw [getChannel_eq]
    exact ⟨rfl, rfl, fun h => Bool.noConfusion h, fun _ => rfl, fun _ => rfl, fun _ => rfl,
      fun _ => rfl⟩
  | dequeue id =>
    simp only [perform]
    rw [dequeue_eq]
    exact ⟨rfl, rfl, fun h => Bool.noConfusion h, fun _ => rfl, fun _ => rfl, fun _ => rfl,
      fun _ => rfl⟩
  | close serial =>
    simp only [perform]
    split
    · rw [closeChannel_eq]
      exact ⟨rfl, rfl, fun h => Bool.noConfusion h, fun _ => rfl, fun _ => rfl, fun _ => rfl,
        fun _ => rfl⟩
    · exact .refl _ b
  | subscribe category =>
    simp only [perform]
    split
    · next hs =>
      rw [subscribe_eq hs]
      exact .of_fields _ b _ _ _ fun h => Bool.noConfusion h
    · exact .refl _ b
  | unsubscribe s =>
    simp only [perform]
    split
    · next hs =>
      rw [unsubscribe_eq hs]
      exact .of_fields _ b _ _ _ fun h => Bool.noConfusion h
    · exact .refl _ b
  | receive s => exact .of_fields _ b _ _ _ fun h => Bool.noConfusion h
  | receiveUpTo s max => exact .of_fields _ b _ _ _ fun h => Bool.noConfusion h
  | wake =>
    exact ⟨rfl, rfl, fun _ => rfl, fun _ => rfl, fun _ => rfl, fun h => Bool.noConfusion h,
      fun _ => rfl⟩
  | drop =>
    simp only [perform]
    rw [foldl_closeChannel_eq]
    exact ⟨rfl, rfl, fun h => Bool.noConfusion h, fun _ => rfl, fun h => Bool.noConfusion h,
      fun _ => rfl, fun h => Bool.noConfusion h⟩

/-! ## Lists of deeds -/

variable {b : Broker} {deeds : List Deed}

theorem replay_agenda (h : ∀ d ∈ deeds, d.action.sparesAgenda = true) :
    (b.replay deeds).agenda = b.agenda := by
  induction deeds generalizing b with
  | nil => rfl
  | cons d rest ih =>
    rw [List.forall_mem_cons] at h
    rw [replay_cons, ih h.2, (perform_framed b d).agenda h.1]

theorem fireDeeds_agenda (b : Broker) (now : Nat) (m : Moment) :
    (b.replay (b.fireDeeds now m)).agenda = (b.agenda.popDue now).2 := by
  rw [fireDeeds, replay_cons, replay_agenda]
  · rfl
  · intro d hd
    obtain ⟨r, -, rfl⟩ := List.mem_map.mp hd
    rfl

theorem replay_wakeup (h : ∀ d ∈ deeds, d.action.sparesWakeup = true) :
    (b.replay deeds).wakeup = b.wakeup := by
  induction deeds generalizing b with
  | nil => rfl
  | cons d rest ih =>
    rw [List.forall_mem_cons] at h
    rw [replay_cons, ih h.2, (perform_framed b d).wakeup h.1]

theorem replay_maxTick (b : Broker) (deeds : List Deed) : (b.replay deeds).maxTick = b.maxTick :=
  replay_induction (P := fun b' => b'.maxTick = b.maxTick)
    (fun b' d h => (perform_framed b' d).maxTick.trans h) rfl deeds

end Broker

end EventBroker
