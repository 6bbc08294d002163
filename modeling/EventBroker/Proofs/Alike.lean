import EventBroker.Proofs.ChannelHistory
import EventBroker.Proofs.Streams

/-! # Brokers that look alike

Two brokers are `Broker.Alike` apart from some channels if all other channels are the same in both,
and if they have the same queues, whoever is attached to them, and the same rules armed; what waits
for subscribers and what has been counted may differ. To whoever does not ask for one of the
channels set apart such brokers are the same: an operation answers the same on both and leaves them
alike (`Broker.Agree`).
-/
set_option autoImplicit false

namespace EventBroker

/-- The queue without those who watch it. -/
def Queue.unwatched (q : Queue) : Queue := { q with watchers := [], published := [] }

theorem Queue.unwatched_attach (q : Queue) (channel : Nat) :
    (q.attach channel).unwatched = q.unwatched := rfl

theorem Queue.unwatched_detach (q : Queue) (channel : Nat) :
    (q.detach channel).unwatched = q.unwatched := by
  unfold detach
  split <;> rfl

theorem Queue.of_unwatched {q q' : Queue} (h : q.unwatched = q'.unwatched) :
    q.serial = q'.serial ∧ q.id = q'.id ∧ q.retired = q'.retired ∧ q.info = q'.info := by
  simp only [unwatched, Queue.mk.injEq] at h
  obtain ⟨hserial, hid, hretired, hpending, hdelivered, -⟩ := h
  exact ⟨hserial, hid, hretired, by rw [info, info, hid, hpending, hdelivered]⟩

/-! ## Registries without watchers -/

namespace Registry

def unwatched (r : Registry) : Registry := ⟨r.queues.map Queue.unwatched⟩

theorem unwatched_get? (r : Registry) (t : Nat) :
    r.unwatched.get? t = (r.get? t).map Queue.unwatched := List.getElem?_map

theorem unwatched_find? (r : Registry) (id : String) :
    r.unwatched.find? id = (r.find? id).map Queue.unwatched := by
  rw [find?, unwatched, List.find?_map]
  rfl

theorem unwatched_resolve (r : Registry) (ids : List String) :
    r.unwatched.resolve ids = r.resolve ids := by
  unfold resolve
  congr 1
  funext id
  rw [unwatched_find?]
  cases r.find? id <;> rfl

theorem unwatched_registered (r : Registry) :
    r.unwatched.registered.map Queue.info = r.registered.map Queue.info := by
  rw [registered, unwatched, List.filter_map, List.map_map]
  rfl

theorem unwatched_append (r : Registry) (id : String) :
    (r.append id).unwatched = r.unwatched.append id := by
  simp [append, unwatched, Queue.unwatched, Queue.new]

/-- A change that has nothing to do with watchers. -/
theorem unwatched_update (r : Registry) (t : Nat) {f : Queue → Queue}
    (hf : ∀ q, (f q).unwatched = f q.unwatched) :
    (r.update t f).unwatched = r.unwatched.update t f := by
  have h : (r.queues.modify t f).map Queue.unwatched =
      (r.queues.map Queue.unwatched).modify t f := by
    refine List.ext_getElem? fun i => ?_
    simp only [List.getElem?_map, List.getElem?_modify]
    cases r.queues[i]? with
    | none => rfl
    | some q =>
      simp only [Option.map_some, Option.map_eq_map]
      split
      · rw [hf]
      · rfl
  exact congrArg Registry.mk h

/-- A change of watchers only. -/
theorem unwatched_spared (r : Registry) (t : Nat) {f : Queue → Queue}
    (hf : ∀ q, (f q).unwatched = q.unwatched) : (r.update t f).unwatched = r.unwatched := by
  have h : (r.queues.modify t f).map Queue.unwatched = r.queues.map Queue.unwatched := by
    refine List.ext_getElem? fun i => ?_
    simp only [List.getElem?_map, List.getElem?_modify]
    cases r.queues[i]? with
    | none => rfl
    | some q =>
      simp only [Option.map_some, Option.map_eq_map]
      split
      · rw [hf]
      · rfl
  exact congrArg Registry.mk h

theorem unwatched_foldl_spared (targets : List Nat) {f : Queue → Queue}
    (hf : ∀ q, (f q).unwatched = q.unwatched) (r : Registry) :
    (targets.foldl (fun r t => r.update t f) r).unwatched = r.unwatched := by
  induction targets generalizing r with
  | nil => rfl
  | cons t rest ih => rw [List.foldl_cons, ih, unwatched_spared r t hf]

end Registry

namespace Broker

variable {apart : ChannelId → Bool} {b b' b'' : Broker} {m : Moment}

/-! ## What is alike -/

/-- The live channels that are not set apart. -/
def others (apart : ChannelId → Bool) (b : Broker) : List Channel :=
  b.channels.filter fun c => !apart c.id

/-- Two brokers that differ at most in the channels set apart, in who watches which queue, in
subscribers and in counts. -/
structure Alike (apart : ChannelId → Bool) (b b' : Broker) : Prop where
  queues : b.registry.unwatched = b'.registry.unwatched
  others : b.others apart = b'.others apart
  nextChannel : b.nextChannel = b'.nextChannel
  agenda : b.agenda = b'.agenda
  channelCapacity : b.channelCapacity = b'.channelCapacity
  maxTick : b.maxTick = b'.maxTick
  wakeup : b.wakeup = b'.wakeup
  scheduled : b.metrics.eventsScheduled = b'.metrics.eventsScheduled
  capacity : b.gateway.capacity = b'.gateway.capacity
  dropped : b.gateway.dropped = b'.gateway.dropped

namespace Alike

theorem refl (apart : ChannelId → Bool) (b : Broker) : Alike apart b b :=
  ⟨rfl, rfl, rfl, rfl, rfl, rfl, rfl, rfl, rfl, rfl⟩

theorem symm (h : Alike apart b b') : Alike apart b' b :=
  ⟨h.queues.symm, h.others.symm, h.nextChannel.symm, h.agenda.symm, h.channelCapacity.symm,
    h.maxTick.symm, h.wakeup.symm, h.scheduled.symm, h.capacity.symm, h.dropped.symm⟩

theorem trans (h : Alike apart b b') (h' : Alike apart b' b'') : Alike apart b b'' :=
  ⟨h.queues.trans h'.queues, h.others.trans h'.others, h.nextChannel.trans h'.nextChannel,
    h.agenda.trans h'.agenda, h.channelCapacity.trans h'.channelCapacity,
    h.maxTick.trans h'.maxTick, h.wakeup.trans h'.wakeup, h.scheduled.trans h'.scheduled,
    h.capacity.trans h'.capacity, h.dropped.trans h'.dropped⟩

end Alike

/-- What an operation does to brokers that are alike: it answers the same, leaves the brokers alike,
and has nothing to do with subscribers. -/
structure Agree {α : Type} (apart : ChannelId → Bool) (b b' : Broker)
    (outcome outcome' : α × Broker) : Prop where
  answer : outcome.1 = outcome'.1
  alike : Alike apart outcome.2 outcome'.2
  gateway : outcome.2.gateway = b.gateway
  gateway' : outcome'.2.gateway = b'.gateway

/-- What happens to a broker without any notice of others: it looks as before, and subscribers have
nothing to do with it. -/
structure Unnoticed (apart : ChannelId → Bool) (b b' : Broker) : Prop where
  alike : Alike apart b b'
  gateway : b'.gateway = b.gateway

theorem Unnoticed.refl (apart : ChannelId → Bool) (b : Broker) : Unnoticed apart b b :=
  ⟨.refl apart b, rfl⟩

/-- Nothing happens. -/
theorem Alike.agree {α : Type} (h : Alike apart b b') (a : α) : Agree apart b b' (a, b) (a, b') :=
  ⟨rfl, h, rfl, rfl⟩

namespace Alike

/-! ## Queues -/

/-- A name means the same incarnation. -/
theorem find?_cases (h : Alike apart b b') (id : String) :
    (b.registry.find? id = none ∧ b'.registry.find? id = none) ∨
      ∃ q q', b.registry.find? id = some q ∧ b'.registry.find? id = some q' ∧
        q.unwatched = q'.unwatched := by
  have hf := congrArg (·.find? id) h.queues
  simp only [Registry.unwatched_find?] at hf
  cases hq : b.registry.find? id with
  | none =>
    rw [hq, Option.map_none] at hf
    exact .inl ⟨rfl, Option.map_eq_none_iff.mp hf.symm⟩
  | some q =>
    rw [hq, Option.map_some] at hf
    obtain ⟨q', hq', he⟩ := Option.map_eq_some_iff.mp hf.symm
    exact .inr ⟨q, q', rfl, hq', he.symm⟩

theorem resolve (h : Alike apart b b') (ids : List String) :
    b.registry.resolve ids = b'.registry.resolve ids := by
  rw [← Registry.unwatched_resolve, h.queues, Registry.unwatched_resolve]

theorem createQueue (h : Alike apart b b') (id : String) :
    Agree apart b b' (b.createQueue id) (b'.createQueue id) := by
  unfold Broker.createQueue
  split
  · exact h.agree _
  obtain ⟨hn, hn'⟩ | ⟨q, q', hq, hq', -⟩ := h.find?_cases id
  · have hqueues : (b.registry.append id).unwatched = (b'.registry.append id).unwatched := by
      rw [Registry.unwatched_append, Registry.unwatched_append, h.queues]
    rw [hn, hn']
    exact ⟨rfl, { h with queues := hqueues }, rfl, rfl⟩
  · rw [hq, hq']
    exact h.agree _

theorem getQueue (h : Alike apart b b') (id : String) :
    Agree apart b b' (b.getQueue id) (b'.getQueue id) := by
  unfold Broker.getQueue
  obtain ⟨hn, hn'⟩ | ⟨q, q', hq, hq', he⟩ := h.find?_cases id
  · rw [hn, hn']
    exact h.agree _
  · rw [hq, hq']
    simp only [(Queue.of_unwatched he).2.2.2]
    exact h.agree _

theorem listQueues (h : Alike apart b b') : b.listQueues = b'.listQueues := by
  unfold Broker.listQueues
  rw [← Registry.unwatched_registered, h.queues, Registry.unwatched_registered]

/-- A change of one incarnation that has nothing to do with watchers. -/
theorem updateQueue (h : Alike apart b b') (t : Nat) {f : Queue → Queue}
    (hf : ∀ q, (f q).unwatched = f q.unwatched) :
    Alike apart (b.updateQueue t f) (b'.updateQueue t f) := by
  have hqueues : (b.registry.update t f).unwatched = (b'.registry.update t f).unwatched := by
    rw [Registry.unwatched_update _ _ hf, Registry.unwatched_update _ _ hf, h.queues]
  exact { h with queues := hqueues }

theorem retire (h : Alike apart b b') (id : String) :
    Agree apart b b' (b.retire id) (b'.retire id) := by
  unfold Broker.retire
  obtain ⟨hn, hn'⟩ | ⟨q, q', hq, hq', he⟩ := h.find?_cases id
  · rw [hn, hn']
    exact h.agree _
  · have hserial := (Queue.of_unwatched he).1
    rw [hq, hq']
    simp only [← hserial]
    exact ⟨rfl, h.updateQueue q.serial fun _ => rfl, rfl, rfl⟩

theorem cancelFor (h : Alike apart b b') (t : Nat) :
    Alike apart (b.cancelFor t) (b'.cancelFor t) := by
  have hcancelled : Alike apart { b with agenda := (b.agenda.cancel t).2 }
      { b' with agenda := (b'.agenda.cancel t).2 } :=
    { h with agenda := congrArg (fun a => (a.cancel t).2) h.agenda }
  have he : b'.cancelFor t = { b' with agenda := (b'.agenda.cancel t).2 }.updateQueue t
      (·.subPending (b.agenda.cancel t).1) := by
    rw [h.agenda]
    rfl
  rw [he]
  exact hcancelled.updateQueue t fun _ => rfl

theorem deleteQueue (h : Alike apart b b') (id : String) :
    Agree apart b b' (b.deleteQueue id) (b'.deleteQueue id) := by
  have hr := h.retire id
  unfold Broker.deleteQueue
  generalize b.retire id = outcome at hr ⊢
  generalize b'.retire id = outcome' at hr ⊢
  obtain ⟨result, b₁⟩ := outcome
  obtain ⟨result', b₁'⟩ := outcome'
  obtain rfl : result = result' := hr.answer
  cases result with
  | error e => exact ⟨rfl, hr.alike, hr.gateway, hr.gateway'⟩
  | ok target => exact ⟨rfl, hr.alike.cancelFor target, hr.gateway, hr.gateway'⟩

/-! ## Submitting -/

theorem targets (h : Alike apart b b') (event : NewEvent) : b.targets event = b'.targets event := by
  unfold Broker.targets
  rw [h.resolve]

theorem arm (h : Alike apart b b') (id : EventId) (event : NewEvent) (targets : List Nat) :
    Alike apart (b.arm id event targets) (b'.arm id event targets) := by
  have hfold : ∀ r : Registry, ((expand event.rules targets).foldl
      (fun r p => r.update p.1 (·.addPending 1)) r).unwatched =
        (expand event.rules targets).foldl
          (fun r p => r.update p.1 (·.addPending 1)) r.unwatched := fun r =>
    (List.foldl_hom Registry.unwatched fun r p =>
      (Registry.unwatched_update r p.1 (f := (·.addPending 1)) fun _ => rfl).symm).symm
  have hqueues : (b.arm id event targets).registry.unwatched =
      (b'.arm id event targets).registry.unwatched := by
    refine (hfold b.registry).trans (Eq.trans ?_ (hfold b'.registry).symm)
    rw [h.queues]
  have hagenda : (b.arm id event targets).agenda = (b'.arm id event targets).agenda := by
    simp only [Broker.arm, h.agenda]
  exact { h with
    queues := hqueues
    agenda := hagenda
    wakeup := rfl
    scheduled := congrArg (· + 1) h.scheduled }

theorem submit (h : Alike apart b b') (id : EventId) (event : NewEvent) :
    Agree apart b b' (b.submit id event) (b'.submit id event) := by
  unfold Broker.submit
  rw [← h.targets]
  cases b.targets event with
  | error e => exact h.agree _
  | ok targets => exact ⟨rfl, h.arm id event targets, rfl, rfl⟩

/-! ## Firing -/

/-- A rule fires into the same incarnation. -/
theorem firing?_cases (h : Alike apart b b') (rule : ArmedRule) :
    (b.firing? rule = none ∧ b'.firing? rule = none) ∨
      ∃ q q', b.firing? rule = some q ∧ b'.firing? rule = some q' ∧ q.unwatched = q'.unwatched := by
  have hg := congrArg (·.get? rule.target) h.queues
  simp only [Registry.unwatched_get?] at hg
  unfold firing?
  cases hq : b.registry.get? rule.target with
  | none =>
    rw [hq, Option.map_none] at hg
    rw [Option.map_eq_none_iff.mp hg.symm]
    exact .inl ⟨rfl, rfl⟩
  | some q =>
    rw [hq, Option.map_some] at hg
    obtain ⟨q', hq', he⟩ := Option.map_eq_some_iff.mp hg.symm
    have hr := (Queue.of_unwatched he).2.2.1
    rw [hq']
    cases hretired : q.retired with
    | true => simp [Option.filter, hretired, hr]
    | false => exact .inr ⟨q, q', by simp [Option.filter, hretired],
        by simp [Option.filter, hretired, hr], he.symm⟩

theorem after_eq (h : Alike apart b b') (rule : ArmedRule) (m : Moment) :
    Channel.after b ⟨m, .fire rule⟩ = Channel.after b' ⟨m, .fire rule⟩ := by
  funext c
  obtain ⟨hn, hn'⟩ | ⟨q, q', hq, hq', he⟩ := h.firing?_cases rule
  · simp only [Channel.after, hn, hn']
  · obtain ⟨hserial, hid, -⟩ := Queue.of_unwatched he
    simp only [Channel.after, hq, hq', hserial, hid]

end Alike

/-- A change of each channel for itself that leaves the identifiers alone. -/
theorem others_map {f : Channel → Channel} (hf : ∀ c, (f c).id = c.id)
    (hc : b'.channels = b.channels.map f) : b'.others apart = (b.others apart).map f := by
  rw [others, others, hc, List.filter_map]
  simp only [Function.comp_def, hf]

theorem fire_unwatched (b : Broker) (rule : ArmedRule) (m : Moment) :
    (b.fire rule m).registry.unwatched =
      match b.firing? rule with
      | none => b.registry.unwatched.update rule.target (·.subPending 1)
      | some q => (b.registry.unwatched.update rule.target (·.subPending 1)).update q.serial
          fun q => { q with delivered := q.delivered + 1 } := by
  cases hf : b.firing? rule with
  | none =>
    rw [fire_of_not_firing? hf]
    exact Registry.unwatched_update _ _ fun _ => rfl
  | some q =>
    rw [fire_of_firing? hf, deliver_eq]
    simp only [updateQueue]
    rw [Registry.unwatched_update, Registry.unwatched_update]
    · rfl
    · exact fun _ => rfl
    · exact fun _ => rfl

theorem foldl_offerTo_scheduled (m : Moment) (event : DeliveredEvent) (watchers : List Nat)
    (b : Broker) : (watchers.foldl (offerTo m event) b).metrics.eventsScheduled =
      b.metrics.eventsScheduled := by
  induction watchers generalizing b with
  | nil => rfl
  | cons w rest ih =>
    rw [List.foldl_cons, ih]
    unfold offerTo
    split
    · rfl
    · split <;> rfl

theorem fire_scheduled (b : Broker) (rule : ArmedRule) (m : Moment) :
    (b.fire rule m).metrics.eventsScheduled = b.metrics.eventsScheduled := by
  cases hf : b.firing? rule with
  | none => rw [fire_metrics_of_not_firing? hf]
  | some q =>
    rw [fire_of_firing? hf]
    exact foldl_offerTo_scheduled m _ _ _

end Broker

namespace Gateway

variable {α : Type}

theorem publish_capacity (g : Gateway α) (category : String) (a : α) :
    (g.publish category a).2.capacity = g.capacity ∧
      (g.publish category a).2.dropped = g.dropped := by
  cases hf : g.find? category with
  | none =>
    rw [publish_none hf]
    exact ⟨rfl, rfl⟩
  | some c =>
    rw [publish_some hf]
    exact ⟨rfl, rfl⟩

end Gateway

namespace Broker

variable {apart : ChannelId → Bool} {b b' b'' : Broker} {m : Moment}

theorem fire_gateway_eq (b : Broker) (rule : ArmedRule) (m : Moment) :
    (b.fire rule m).gateway.capacity = b.gateway.capacity ∧
      (b.fire rule m).gateway.dropped = b.gateway.dropped := by
  cases hf : b.firing? rule with
  | none =>
    rw [fire_of_not_firing? hf]
    exact ⟨rfl, rfl⟩
  | some q =>
    rw [fire_gateway hf]
    exact Gateway.publish_capacity _ _ _

theorem Alike.fire (h : Alike apart b b') (hl : b.Linked) (hl' : b'.Linked) (rule : ArmedRule)
    (m : Moment) : Alike apart (b.fire rule m) (b'.fire rule m) where
  queues := by
    rw [fire_unwatched, fire_unwatched, h.queues]
    obtain ⟨hn, hn'⟩ | ⟨q, q', hq, hq', he⟩ := h.firing?_cases rule
    · rw [hn, hn']
    · rw [hq, hq']
      simp only [(Queue.of_unwatched he).1]
  others := by
    have hid : ∀ d c, (Channel.after b d c).id = c.id := fun d c =>
      (Channel.of_bare (Channel.after_bare b d c)).2.1
    have hid' : ∀ d c, (Channel.after b' d c).id = c.id := fun d c =>
      (Channel.of_bare (Channel.after_bare b' d c)).2.1
    rw [others_map (hid _) (hl.fire_channels rule m),
      others_map (hid' _) (hl'.fire_channels rule m), h.others, h.after_eq]
  nextChannel := by rw [fire_nextChannel, fire_nextChannel, h.nextChannel]
  agenda := by rw [fire_agenda, fire_agenda, h.agenda]
  channelCapacity := by rw [fire_channelCapacity, fire_channelCapacity, h.channelCapacity]
  maxTick := by rw [fire_eq, fire_eq b', h.maxTick]
  wakeup := by rw [fire_eq, fire_eq b', h.wakeup]
  scheduled := by rw [fire_scheduled, fire_scheduled, h.scheduled]
  capacity := by rw [(fire_gateway_eq b rule m).1, (fire_gateway_eq b' rule m).1, h.capacity]
  dropped := by rw [(fire_gateway_eq b rule m).2, (fire_gateway_eq b' rule m).2, h.dropped]

theorem fireDue_eq (b : Broker) (now : Nat) (m : Moment) : b.fireDue now m =
    ((b.popDue now).1.length,
      (b.popDue now).1.foldl (fun b rule => b.fire rule m) (b.popDue now).2) := rfl

namespace Alike

/-- An event that fires comes to subscribers that are in the same position in the same way. -/
theorem fire_waiting (h : Alike apart b b') {live live' : List Subscription}
    (hs : b.gateway.Serves live) (hs' : b'.gateway.Serves live') (hd : b.gateway.dropped = false)
    {sub sub' : Subscription} (hm : sub ∈ live) (hm' : sub' ∈ live')
    (hc : sub.category = sub'.category) (hw : b.gateway.waiting sub = b'.gateway.waiting sub')
    (rule : ArmedRule) (m : Moment) :
    (b.fire rule m).gateway.waiting sub = (b'.fire rule m).gateway.waiting sub' := by
  obtain ⟨hn, hn'⟩ | ⟨q, q', hq, hq', he⟩ := h.firing?_cases rule
  · rw [fire_of_not_firing? hn, fire_of_not_firing? hn']
    exact hw
  · rw [fire_gateway hq, fire_gateway hq', hs.waiting_publish hd _ _ hm,
      hs'.waiting_publish (h.dropped ▸ hd) _ _ hm', (Queue.of_unwatched he).2.1, hc, hw, h.capacity]

/-- Rules fire one after another. -/
theorem fires (h : Alike apart b b') (hl : b.Linked) (hl' : b'.Linked) (rules : List ArmedRule)
    (m : Moment) : Alike apart (rules.foldl (fun b rule => b.fire rule m) b)
      (rules.foldl (fun b rule => b.fire rule m) b') := by
  induction rules generalizing b b' with
  | nil => exact h
  | cons rule rest ih =>
    exact ih (h.fire hl hl' rule m) (hl.perform ⟨m, .fire rule⟩) (hl'.perform ⟨m, .fire rule⟩)

theorem fires_waiting (h : Alike apart b b') (hl : b.Linked) (hl' : b'.Linked)
    {live live' : List Subscription} (hs : b.gateway.Serves live) (hs' : b'.gateway.Serves live')
    (hd : b.gateway.dropped = false) {sub sub' : Subscription} (hm : sub ∈ live)
    (hm' : sub' ∈ live') (hc : sub.category = sub'.category)
    (hw : b.gateway.waiting sub = b'.gateway.waiting sub') (rules : List ArmedRule) (m : Moment) :
    (rules.foldl (fun b rule => b.fire rule m) b).gateway.waiting sub =
      (rules.foldl (fun b rule => b.fire rule m) b').gateway.waiting sub' := by
  induction rules generalizing b b' with
  | nil => exact hw
  | cons rule rest ih =>
    have hserves := (Serviced.fire hs hd m rule).serves
    have hserves' := (Serviced.fire hs' (h.dropped ▸ hd) m rule).serves
    exact ih (h.fire hl hl' rule m) (hl.perform ⟨m, .fire rule⟩) (hl'.perform ⟨m, .fire rule⟩)
      hserves hserves' ((fire_gateway_eq b rule m).2.trans hd)
      (h.fire_waiting hs hs' hd hm hm' hc hw rule m)

theorem popDue (h : Alike apart b b') (now : Nat) : (b.popDue now).1 = (b'.popDue now).1 ∧
    Alike apart (b.popDue now).2 (b'.popDue now).2 :=
  ⟨congrArg (fun a => (a.popDue now).1) h.agenda,
    { h with agenda := congrArg (fun a => (a.popDue now).2) h.agenda }⟩

/-- What is due fires. -/
theorem fireDue (h : Alike apart b b') (hl : b.Linked) (hl' : b'.Linked) (now : Nat) (m : Moment) :
    (b.fireDue now m).1 = (b'.fireDue now m).1 ∧
      Alike apart (b.fireDue now m).2 (b'.fireDue now m).2 := by
  obtain ⟨hdue, hpopped⟩ := h.popDue now
  have hfires := hpopped.fires (hl.perform ⟨m, .popDue now⟩) (hl'.perform ⟨m, .popDue now⟩)
    (b.popDue now).1 m
  rw [fireDue_eq, fireDue_eq, ← hdue]
  exact ⟨rfl, hfires⟩

theorem fireDue_waiting (h : Alike apart b b') (hl : b.Linked) (hl' : b'.Linked)
    {live live' : List Subscription} (hs : b.gateway.Serves live) (hs' : b'.gateway.Serves live')
    (hd : b.gateway.dropped = false) {sub sub' : Subscription} (hm : sub ∈ live)
    (hm' : sub' ∈ live') (hc : sub.category = sub'.category)
    (hw : b.gateway.waiting sub = b'.gateway.waiting sub') (now : Nat) (m : Moment) :
    (b.fireDue now m).2.gateway.waiting sub = (b'.fireDue now m).2.gateway.waiting sub' := by
  obtain ⟨hdue, hpopped⟩ := h.popDue now
  have hfires := hpopped.fires_waiting (hl.perform ⟨m, .popDue now⟩)
    (hl'.perform ⟨m, .popDue now⟩) hs hs' hd hm hm' hc hw (b.popDue now).1 m
  rw [fireDue_eq, fireDue_eq, ← hdue]
  exact hfires

end Alike

end Broker

end EventBroker
