import EventBroker.Proofs.Alike

/-! # Channels that are set apart

Whoever asks for a channel that is set apart leaves a broker as it was, to all others
(`Broker.Unnoticed`). Whoever asks for another channel gets the same answer on
brokers that are alike. When idle channels are reaped, more or fewer of those set apart may be among
them; all others that are idle in one broker are idle in the other.
-/
set_option autoImplicit false

namespace EventBroker.Broker

variable {apart : ChannelId → Bool} {b b' : Broker} {c : Channel} {id : ChannelId} {m : Moment}

/-! ## Changing one channel -/

theorem mem_others : c ∈ b.others apart ↔ c ∈ b.channels ∧ apart c.id = false := by
  simp [others]

/-- A channel that is not set apart is found among those that are not. -/
theorem others_find? (b : Broker) (hid : apart id = false) :
    (b.others apart).find? (·.id == id) = b.channel? id := by
  rw [others, List.find?_filter, channel?]
  congr 1
  funext c
  by_cases he : c.id = id
  · simp [he, hid]
  · simp [he]

theorem others_updateChannel (b : Broker) (n : Nat) {f : Channel → Channel}
    (hf : ∀ c, (f c).id = c.id) :
    (b.updateChannel n f).others apart =
      (b.others apart).map fun c => if c.serial = n then f c else c := by
  refine others_map (fun c => ?_) rfl
  split
  · exact hf c
  · rfl

/-- A channel that is set apart is none of the others. -/
theorem Distinct.serial_ne (h : b.Distinct) (hc : c ∈ b.channels) (ha : apart c.id = true)
    {x : Channel} (hx : x ∈ b.others apart) : x.serial ≠ c.serial := by
  obtain ⟨hm, hx⟩ := mem_others.mp hx
  intro he
  rw [h.eq_of_serial hm hc he, ha] at hx
  cases hx

theorem Distinct.alike_updateChannel (h : b.Distinct) (hc : c ∈ b.channels)
    (ha : apart c.id = true) {f : Channel → Channel} (hf : ∀ c, (f c).id = c.id) :
    Alike apart b (b.updateChannel c.serial f) := by
  have hothers : b.others apart = (b.updateChannel c.serial f).others apart := by
    rw [others_updateChannel b c.serial hf]
    exact ((List.map_congr_left fun x hx => if_neg (h.serial_ne hc ha hx)).trans
      (List.map_id _)).symm
  exact { Alike.refl apart b with others := hothers }

/-! ## Closing channels -/

theorem foldl_closeChannel_unwatched (cs : List Channel) (b : Broker) :
    (cs.foldl closeChannel b).registry.unwatched = b.registry.unwatched := by
  induction cs generalizing b with
  | nil => rfl
  | cons c rest ih =>
    rw [List.foldl_cons, ih, closeChannel_registry]
    exact Registry.unwatched_foldl_spared _ (fun q => q.unwatched_detach c.serial) _

theorem foldl_closeChannel_scheduled (cs : List Channel) (b : Broker) :
    (cs.foldl closeChannel b).metrics.eventsScheduled = b.metrics.eventsScheduled := by
  induction cs generalizing b with
  | nil => rfl
  | cons c rest ih => rw [List.foldl_cons, ih, closeChannel_metrics, Metrics.release_eq]

theorem others_foldl_closeChannel (cs : List Channel) (b : Broker) :
    (cs.foldl closeChannel b).others apart =
      (b.others apart).filter fun c => cs.all (c.serial != ·.serial) := by
  rw [others, others, channels_foldl_closeChannel, List.filter_filter, List.filter_filter]
  apply List.filter_congr
  intro c _
  exact Bool.and_comm _ _

/-- Closing takes channels away and leaves all else alike. -/
theorem Alike.foldl_closeChannel (h : Alike apart b b') (cs cs' : List Channel)
    (ho : (cs.foldl Broker.closeChannel b).others apart =
      (cs'.foldl Broker.closeChannel b').others apart) :
    Alike apart (cs.foldl Broker.closeChannel b) (cs'.foldl Broker.closeChannel b') where
  queues := by rw [foldl_closeChannel_unwatched, foldl_closeChannel_unwatched, h.queues]
  others := ho
  nextChannel := by rw [foldl_closeChannel_eq, foldl_closeChannel_eq cs' b', h.nextChannel]
  agenda := by rw [foldl_closeChannel_eq, foldl_closeChannel_eq cs' b', h.agenda]
  channelCapacity := by
    rw [foldl_closeChannel_eq, foldl_closeChannel_eq cs' b', h.channelCapacity]
  maxTick := by rw [foldl_closeChannel_eq, foldl_closeChannel_eq cs' b', h.maxTick]
  wakeup := by rw [foldl_closeChannel_eq, foldl_closeChannel_eq cs' b', h.wakeup]
  scheduled := by
    rw [foldl_closeChannel_scheduled, foldl_closeChannel_scheduled, h.scheduled]
  capacity := by rw [foldl_closeChannel_eq, foldl_closeChannel_eq cs' b', h.capacity]
  dropped := by rw [foldl_closeChannel_eq, foldl_closeChannel_eq cs' b', h.dropped]

/-- The same one of the others is closed. -/
theorem Alike.closeChannel (h : Alike apart b b') (c : Channel) :
    Alike apart (b.closeChannel c) (b'.closeChannel c) :=
  h.foldl_closeChannel [c] [c] <| by
    rw [others_foldl_closeChannel, others_foldl_closeChannel, h.others]

theorem Distinct.alike_closeChannel (h : b.Distinct) (hc : c ∈ b.channels)
    (ha : apart c.id = true) : Alike apart b (b.closeChannel c) :=
  (Alike.refl apart b).foldl_closeChannel [] [c] <| by
    rw [others_foldl_closeChannel, others_foldl_closeChannel]
    apply List.filter_congr
    intro x hx
    simpa using h.serial_ne hc ha hx

theorem closeChannel_gateway (b : Broker) (c : Channel) :
    (b.closeChannel c).gateway = b.gateway := by rw [closeChannel_eq]

/-! ## Operations on one channel -/

/-- A channel that is not set apart is the same in both brokers. -/
theorem Alike.channel? (h : Alike apart b b') (hid : apart id = false) :
    b.channel? id = b'.channel? id := by
  rw [← others_find? b hid, h.others, others_find? b' hid]

theorem Alike.updateChannel (h : Alike apart b b') (n : Nat) {f : Channel → Channel}
    (hf : ∀ c, (f c).id = c.id) : Alike apart (b.updateChannel n f) (b'.updateChannel n f) := by
  have hothers : (b.updateChannel n f).others apart = (b'.updateChannel n f).others apart := by
    rw [others_updateChannel b n hf, others_updateChannel b' n hf, h.others]
  exact { h with others := hothers }

theorem Alike.getChannel (h : Alike apart b b') (hid : apart id = false) (m : Moment) :
    Agree apart b b' (b.getChannel id m) (b'.getChannel id m) := by
  unfold Broker.getChannel
  rw [← h.channel? hid]
  cases b.channel? id with
  | none => exact h.agree _
  | some c => exact ⟨rfl, h.updateChannel c.serial fun _ => rfl, rfl, rfl⟩

theorem Distinct.getChannel_unnoticed (h : b.Distinct) (hid : apart id = true) (m : Moment) :
    Unnoticed apart b (b.getChannel id m).2 := by
  unfold Broker.getChannel
  cases hc : b.channel? id with
  | none => exact .refl apart b
  | some c =>
    obtain ⟨hm, rfl⟩ := mem_of_channel? hc
    exact ⟨h.alike_updateChannel hm hid fun _ => rfl, rfl⟩

theorem Alike.deleteChannel (h : Alike apart b b') (hid : apart id = false) :
    Agree apart b b' (b.deleteChannel id) (b'.deleteChannel id) := by
  unfold Broker.deleteChannel
  rw [← h.channel? hid]
  cases b.channel? id with
  | none => exact h.agree _
  | some c => exact ⟨rfl, h.closeChannel c, closeChannel_gateway b c, closeChannel_gateway b' c⟩

theorem Distinct.deleteChannel_unnoticed (h : b.Distinct) (hid : apart id = true) :
    Unnoticed apart b (b.deleteChannel id).2 := by
  unfold Broker.deleteChannel
  cases hc : b.channel? id with
  | none => exact .refl apart b
  | some c =>
    obtain ⟨hm, rfl⟩ := mem_of_channel? hc
    exact ⟨h.alike_closeChannel hm hid, closeChannel_gateway b c⟩

/-- Counting what was dequeued concerns nothing else. -/
theorem Alike.of_dequeued (h : Alike apart b b') {metrics : Metrics}
    (hm : metrics.eventsScheduled = b'.metrics.eventsScheduled) :
    Alike apart b { b' with metrics } :=
  { h with scheduled := h.scheduled.trans hm.symm }

theorem Alike.dequeue (h : Alike apart b b') (hid : apart id = false) (m : Moment) :
    Agree apart b b' (b.dequeue id m) (b'.dequeue id m) := by
  unfold Broker.dequeue
  rw [← h.channel? hid]
  cases b.channel? id with
  | none => exact h.agree _
  | some c =>
    have hu := h.updateChannel c.serial (f := fun c => (c.touch m.now).drain) fun _ => rfl
    have hd' := hu.of_dequeued
      (Metrics.dequeue_scheduled b'.metrics (c.trigger m.mono) c.events.size)
    have hd := hd'.symm.of_dequeued
      (Metrics.dequeue_scheduled b.metrics (c.trigger m.mono) c.events.size)
    exact ⟨rfl, hd.symm, rfl, rfl⟩

theorem Distinct.dequeue_unnoticed (h : b.Distinct) (hid : apart id = true) (m : Moment) :
    Unnoticed apart b (b.dequeue id m).2 := by
  unfold Broker.dequeue
  cases hc : b.channel? id with
  | none => exact .refl apart b
  | some c =>
    obtain ⟨hm, rfl⟩ := mem_of_channel? hc
    have hu := h.alike_updateChannel hm hid (f := fun c => (c.touch m.now).drain) fun _ => rfl
    exact ⟨hu.of_dequeued (Metrics.dequeue_scheduled b.metrics (c.trigger m.mono) c.events.size),
      rfl⟩

/-! ## Creating and reaping -/

theorem Alike.createChannel (h : Alike apart b b') (id : ChannelId) (queues : List String)
    (options : BufferOptions) (m : Moment) :
    Agree apart b b' (b.createChannel id queues options m)
      (b'.createChannel id queues options m) := by
  unfold Broker.createChannel
  split
  · exact h.agree _
  split
  · exact h.agree _
  rw [← h.resolve]
  cases b.registry.resolve queues with
  | error e => exact h.agree _
  | ok targets =>
    have hspared : ∀ (n : Nat) (ts : List Nat) (r : Registry),
        (ts.foldl (fun r t => r.update t (·.attach n)) r).unwatched = r.unwatched := fun n ts r =>
      Registry.unwatched_foldl_spared ts (fun q => q.unwatched_attach n) r
    have hothers : ∀ made : Channel, (b.channels ++ [made]).filter (fun c => !apart c.id) =
        (b'.channels ++ [made]).filter fun c => !apart c.id := fun made => by
      rw [List.filter_append, List.filter_append]
      exact congrArg (· ++ _) h.others
    simp only [attach, foldl_updateQueue, ← h.nextChannel, ← h.channelCapacity]
    refine ⟨rfl, { h with
      queues := ?_
      others := hothers _
      nextChannel := rfl
      channelCapacity := rfl }, rfl, rfl⟩
    rw [hspared, hspared, h.queues]

/-- Reaping leaves those that are not idle. -/
theorem Distinct.others_reap (h : b.Distinct) (timeout : Nat) (m : Moment) :
    (b.reap timeout m).2.others apart =
      (b.others apart).filter fun c => !c.isIdle m.now timeout := by
  unfold reap
  rw [others_foldl_closeChannel]
  apply List.filter_congr
  intro c hc
  obtain ⟨hm, -⟩ := mem_others.mp hc
  rw [Bool.eq_iff_iff]
  simp only [List.all_eq_true, List.mem_filter, bne_iff_ne, ne_eq, Bool.not_eq_true',
    Bool.eq_false_iff]
  constructor
  · intro hall hidle
    exact hall c ⟨hm, hidle⟩ rfl
  · rintro hidle x ⟨hx, hxidle⟩ he
    rw [h.eq_of_serial hm hx he] at hidle
    exact hidle hxidle

theorem Alike.reap (h : Alike apart b b') (hd : b.Distinct) (hd' : b'.Distinct) (timeout : Nat)
    (m : Moment) :
    ((b.reap timeout m).1.filter fun id => !apart id) =
      ((b'.reap timeout m).1.filter fun id => !apart id) ∧
    Alike apart (b.reap timeout m).2 (b'.reap timeout m).2 := by
  have hidle : ∀ b : Broker, ((b.reap timeout m).1.filter fun id => !apart id) =
      ((b.others apart).filter fun c => c.isIdle m.now timeout).map (·.id) := fun b => by
    simp only [Broker.reap, Broker.others, List.filter_map, List.filter_filter]
    congr 1
    apply List.filter_congr
    intro c _
    exact Bool.and_comm _ _
  refine ⟨by rw [hidle, hidle, h.others], h.foldl_closeChannel _ _ ?_⟩
  calc (b.reap timeout m).2.others apart
      = (b.others apart).filter fun c => !c.isIdle m.now timeout := hd.others_reap timeout m
    _ = (b'.others apart).filter fun c => !c.isIdle m.now timeout := by rw [h.others]
    _ = (b'.reap timeout m).2.others apart := (hd'.others_reap timeout m).symm

/-- The broker is dropped. -/
theorem Alike.drop (h : Alike apart b b') :
    Alike apart (b.channels.foldl Broker.closeChannel b).drop
      (b'.channels.foldl Broker.closeChannel b').drop := by
  have hnil (b : Broker) : (b.channels.foldl Broker.closeChannel b).others apart = [] := by
    rw [Broker.others, channels_close_all]
    rfl
  have hc := h.foldl_closeChannel _ _ ((hnil b).trans (hnil b').symm)
  exact { hc with others := rfl, agenda := rfl, dropped := rfl }

end EventBroker.Broker
