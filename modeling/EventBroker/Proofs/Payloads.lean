import EventBroker.Proofs.AlikeChannels
import EventBroker.Proofs.Buffers
import EventBroker.Proofs.ChannelNames
import EventBroker.Proofs.Fates
import EventBroker.Proofs.Identifiers
import EventBroker.Proofs.LossyText
import EventBroker.Proofs.Provenance

/-! # Payloads arrive as they were sent

An event that is accepted under an identifier is armed under it with its payload, and no other event
gets the identifier as long as the supply gives none twice (`armings_ids`). So wherever a copy shows
up with this identifier, it shows this payload: as bytes on the broker itself, as text over HTTP and
on streams (`payloads_arrive`).
-/
set_option autoImplicit false

namespace EventBroker

/-! ## How many events were armed -/

namespace Broker

/-- Arming counts, and nothing else does. -/
theorem perform_scheduled (b : Broker) (d : Deed) : (b.perform d).metrics.eventsScheduled =
    b.metrics.eventsScheduled + (armings [d]).length := by
  obtain ⟨m, action⟩ := d
  cases action with
  | arm id event targets => rfl
  | createQueue id =>
    simp only [perform]
    rw [createQueue_eq]
    rfl
  | retire id =>
    simp only [perform]
    rw [retire_eq]
    rfl
  | createChannel id queues options =>
    simp only [perform]
    rw [createChannel_eq]
    rfl
  | getChannel id =>
    simp only [perform]
    rw [getChannel_eq]
    rfl
  | dequeue id =>
    simp only [perform, Broker.dequeue]
    split
    · rfl
    · exact Metrics.dequeue_scheduled _ _ _
  | close serial =>
    simp only [perform]
    split
    · exact foldl_closeChannel_scheduled [_] b
    · rfl
  | subscribe category =>
    simp only [perform]
    split
    · next hs =>
      rw [subscribe_eq hs]
      rfl
    · rfl
  | unsubscribe s =>
    simp only [perform]
    split
    · next hs =>
      obtain ⟨⟨registered, g⟩, -, he⟩ := Session.map_eq_ok_iff.mp hs
      cases he
      cases registered <;> rfl
    · rfl
  | fire rule => exact fire_scheduled b rule m
  | drop => exact foldl_closeChannel_scheduled b.channels b
  | cancelFor | popDue | receive | receiveUpTo | wake => rfl

theorem replay_scheduled (b : Broker) (deeds : List Deed) :
    (b.replay deeds).metrics.eventsScheduled =
      b.metrics.eventsScheduled + (armings deeds).length := by
  induction deeds generalizing b with
  | nil => rfl
  | cons d rest ih =>
    have hcons : armings (d :: rest) = armings [d] ++ armings rest :=
      List.filterMap_append (l := [d])
    rw [replay_cons, ih, perform_scheduled, hcons, List.length_append, Nat.add_assoc]

end Broker

/-! ## What is submitted -/

namespace Session

/-- The event that a request posts, if it posts one whose body can be read. -/
def posted? (r : RawRequest) : Option Api.EventCreateRequest :=
  (request? r false).bind fun req =>
    if Api.Resource.ofPath? req.path = some .events ∧ req.method = "POST" then
      Api.body? Api.EventCreateRequest.decode req
    else none

end Session

/-- The event that a step submits, on the broker itself or over HTTP. -/
def Step.submission? : Step → Option NewEvent
  | .submit event => some event
  | .http r => (Session.posted? r).map (·.toEvent)
  | _ => none

/-- Whether an answer says that an event was accepted under an identifier. -/
def Answer.Accepts (a : Answer) (id : EventId) : Prop :=
  a = .accepted id ∨ a = .response (.ok (Api.EventCreatedResponse.toJson ⟨id.toText⟩))

/-! ## What is armed -/

theorem armings_flatMap {α : Type} {as : List α} {f : α → List Deed}
    (h : ∀ a ∈ as, armings (f a) = []) : armings (as.flatMap f) = [] := by
  rw [armings, List.filterMap_flatMap, List.flatMap_eq_nil_iff]
  exact h

theorem armings_map {α : Type} {as : List α} {f : α → Deed} (h : ∀ a, (f a).armed? = none) :
    armings (as.map f) = [] := by
  rw [armings, List.filterMap_map, List.filterMap_eq_nil_iff]
  exact fun a _ => h a

theorem armings_deleteQueueDeeds (b : Broker) (id : String) (m : Moment) :
    armings (b.deleteQueueDeeds id m) = [] := by
  unfold Broker.deleteQueueDeeds
  split <;> rfl

theorem armings_closeDeeds (b : Broker) (id : ChannelId) (m : Moment) :
    armings (b.closeDeeds id m) = [] := by
  unfold Broker.closeDeeds
  split <;> rfl

theorem armings_endDeeds (m : Moment) (socket : Socket) :
    armings (Session.endDeeds m socket) = [] := armings_map fun _ => rfl

theorem armings_submitDeeds (b : Broker) (id : EventId) (event : NewEvent) (m : Moment) :
    armings (b.submitDeeds id event m) =
      if (b.targets event).isOk = true then [(id, event.data)] else [] := by
  unfold Broker.submitDeeds
  cases b.targets event <;> rfl

namespace Api

variable {b : Broker} {fresh : FreshIds} {m : Moment} {req : Http.Request}

theorem verb?_events (method : String) :
    Resource.events.verb? method = if method = "POST" then some .post else none := by
  simp only [Resource.verb?, Resource.verbs, List.find?_singleton, Verb.methods,
    List.contains_cons, List.contains_nil, Bool.or_false, beq_iff_eq]

/-- Only posting to the events arms anything. -/
theorem armings_resourceDeeds {resource : Resource} (h : resource ≠ .events) (verb : Verb) :
    armings (resourceDeeds b fresh m req resource verb) = [] := by
  unfold resourceDeeds
  split
  · exact armings_flatMap fun _ _ => rfl
  · exact armings_flatMap fun id _ => armings_deleteQueueDeeds b id m
  · exact absurd rfl h
  · exact armings_flatMap fun _ _ => rfl
  · exact armings_flatMap fun _ _ => rfl
  · exact armings_flatMap fun id _ => armings_closeDeeds b id m
  · exact armings_flatMap fun _ _ => rfl
  · split
    · exact armings_flatMap fun _ _ => rfl
    · rfl
  · rfl

theorem armings_deeds_of_post (hp : Resource.ofPath? req.path = some .events)
    (hm : req.method = "POST") : armings (deeds b fresh m req) =
      armings ((body? EventCreateRequest.decode req).toList.flatMap fun body =>
        b.submitDeeds fresh.event body.toEvent m) := by
  have hverb : Resource.events.verb? req.method = some .post := by rw [verb?_events, if_pos hm]
  simp only [deeds, hp, hverb, resourceDeeds]

theorem armings_deeds_of_not_post
    (h : ¬ (Resource.ofPath? req.path = some .events ∧ req.method = "POST")) :
    armings (deeds b fresh m req) = [] := by
  unfold deeds
  cases hp : Resource.ofPath? req.path with
  | none => rfl
  | some resource =>
    simp only
    cases hv : resource.verb? req.method with
    | none => rfl
    | some verb =>
      refine armings_resourceDeeds ?_ verb
      rintro rfl
      rw [verb?_events] at hv
      obtain ⟨hm, -⟩ := Option.ite_none_right_eq_some.mp hv
      exact h ⟨hp, hm⟩

end Api

namespace Session

variable {s s' : Session} {x : Step} {a : Answer} {event : NewEvent} {id : EventId}

theorem armings_http (s : Session) (r : RawRequest) :
    armings (s.callerDeeds (.http r)) =
      ((posted? r).map (·.toEvent)).elim [] fun event =>
        if (s.broker.targets event).isOk = true then [(s.fresh.event, event.data)] else [] := by
  unfold posted?
  simp only [callerDeeds]
  cases request? r false with
  | none => rfl
  | some req =>
    simp only [Option.toList_some, List.flatMap_singleton, Option.bind_some]
    by_cases h : Api.Resource.ofPath? req.path = some .events ∧ req.method = "POST"
    · rw [if_pos h, Api.armings_deeds_of_post h.1 h.2]
      cases Api.body? Api.EventCreateRequest.decode req with
      | none => rfl
      | some body =>
        simp only [Option.toList_some, List.flatMap_singleton, Option.map_some, Option.elim_some]
        exact armings_submitDeeds _ _ _ _
    · rw [if_neg h, Api.armings_deeds_of_not_post h]
      rfl

/-- What a caller arms: the event that is submitted, under the next identifier, if it is sound. -/
theorem armings_callerDeeds (s : Session) (x : Step) : armings (s.callerDeeds x) =
    x.submission?.elim [] fun event =>
      if (s.broker.targets event).isOk = true then [(s.fresh.event, event.data)] else [] := by
  cases x with
  | submit event => exact armings_submitDeeds _ _ _ _
  | http r => exact armings_http s r
  | connect path =>
    refine armings_flatMap fun req hreq => Api.armings_deeds_of_not_post fun h => ?_
    rw [method_of_request? (Option.mem_toList.mp hreq)] at h
    exact absurd h.2 (show "GET" ≠ "POST" by decide)
  | createQueue | createChannel | subscribe | dropBroker => rfl
  | deleteQueue id => exact armings_deleteQueueDeeds _ _ _
  | getChannel | dequeue => exact armings_flatMap fun _ _ => rfl
  | deleteChannel => exact armings_flatMap fun id _ => armings_closeDeeds _ id _
  | reap | receive | receiveOne | unsubscribe => exact armings_map fun _ => rfl
  | fire now =>
    have hfires : armings (s.broker.fireDeeds (now.getD s.moment.now) s.moment) =
        armings ((s.broker.agenda.popDue (now.getD s.moment.now)).1.map fun r =>
          ⟨s.moment, .fire r⟩) := rfl
    exact hfires.trans (armings_map fun _ => rfl)
  | send index message =>
    cases message with
    | ping text =>
      simp only [callerDeeds]
      split
      · rfl
      · exact armings_flatMap fun socket _ => armings_endDeeds _ socket
    | text | binary => rfl
  | closeSocket => exact armings_flatMap fun socket _ => armings_endDeeds _ socket
  | listQueues | getQueue | listChannels | now | advance | setWall | subscriberCount | metrics
  | startDriver | stopDriver | startReaper | readSocket => rfl

theorem serve_posted {s : Session} {req : Http.Request} {reply : Api.Reply} {b : Broker}
    (hp : Api.Resource.ofPath? req.path = some .events) (hm : req.method = "POST")
    {body : Api.EventCreateRequest}
    (hbody : Api.body? Api.EventCreateRequest.decode req = some body)
    (hs : Api.serve s.broker s.fresh s.moment req = .ok (reply, b)) :
    reply = .response (match s.broker.targets body.toEvent with
      | .ok _ => .ok (Api.EventCreatedResponse.toJson ⟨s.fresh.event.toText⟩)
      | .error e => .ofError e) := by
  have hverb : Api.Resource.events.verb? req.method = some .post := by
    rw [Api.verb?_events, if_pos hm]
  have hhead : req.method ≠ "HEAD" := by
    rw [hm]
    decide
  have hread : Api.readBody Api.EventCreateRequest.decode req = .ok body := by
    unfold Api.body? at hbody
    cases hr : Api.readBody Api.EventCreateRequest.decode req with
    | error message =>
      rw [hr] at hbody
      cases hbody
    | ok body' =>
      rw [hr] at hbody
      cases hbody
      rfl
  simp only [Api.serve, hp, hverb, Api.answer, Api.withBody, hread, Broker.submit, Api.forMethod,
    if_neg hhead] at hs
  cases ht : s.broker.targets body.toEvent <;> rw [ht] at hs <;> cases hs <;> rfl

/-- An event is accepted under the next identifier, and only if it is sound. -/
theorem accepted_of_act (ha : s.act x = .ok (a, s')) (hx : x.submission? = some event)
    (hid : a.Accepts id) : (s.broker.targets event).isOk = true ∧ id = s.fresh.event := by
  cases x with
  | submit event' =>
    obtain rfl : event' = event := Option.some.inj hx
    simp only [Session.act, onBroker, Broker.submit, Except.ok.injEq] at ha
    cases ht : s.broker.targets event' with
    | error e =>
      rw [ht] at ha
      cases ha
      rcases hid with hid | hid <;> cases hid
    | ok targets =>
      rw [ht] at ha
      cases ha
      rcases hid with hid | hid <;> cases hid
      exact ⟨rfl, rfl⟩
  | http r =>
    obtain ⟨body, hbody, rfl⟩ := Option.map_eq_some_iff.mp hx
    obtain ⟨req, hreq, hbody⟩ := Option.bind_eq_some_iff.mp hbody
    obtain ⟨⟨hp, hm⟩, hbody⟩ := Option.ite_none_right_eq_some.mp hbody
    simp only [Session.act, http, hreq] at ha
    obtain ⟨⟨reply, b⟩, hserve, he⟩ := bind_eq_ok_iff.mp ha
    obtain rfl := serve_posted hp hm hbody hserve
    cases he
    cases ht : s.broker.targets body.toEvent with
    | error e =>
      rw [ht] at hid
      rcases hid with hid | hid
      · cases hid
      · cases e <;> cases hid
    | ok targets =>
      rw [ht] at hid
      rcases hid with hid | hid
      · cases hid
      · have htext : s.fresh.event.toText = id.toText := by
          simpa [Api.EventCreatedResponse.toJson, Http.Response.ok, Http.Response.json] using hid
        exact ⟨rfl, (EventId.toText_injective htext).symm⟩
  | _ => cases hx

/-! ## Runs -/

/-- The events that are armed in a run have the identifiers that are next, one after another. -/
theorem armings_ids {steps : List Step} {answers : List Answer} (h : s.broker.Linked)
    (hr : s.run steps = .ok (answers, s')) : (armings (s.deeds steps)).map Prod.fst =
      (List.range' s.broker.metrics.eventsScheduled (armings (s.deeds steps)).length).map
        s.supply.event := by
  induction steps generalizing s answers with
  | nil => rfl
  | cons x rest ih =>
    obtain ⟨a, mid, later, hx, hr, -⟩ := run_cons_eq_ok_iff.mp hr
    have hnext : mid.broker.metrics.eventsScheduled =
        s.broker.metrics.eventsScheduled + (armings (s.callerDeeds x)).length := by
      rw [step_replays h hx, Broker.replay_scheduled, armings_stepDeeds]
    have hfirst : (armings (s.callerDeeds x)).map Prod.fst =
        (List.range' s.broker.metrics.eventsScheduled (armings (s.callerDeeds x)).length).map
          s.supply.event := by
      rw [armings_callerDeeds]
      cases x.submission? with
      | none => rfl
      | some event =>
        simp only [Option.elim_some]
        split <;> rfl
    rw [armings_deeds_cons hx, List.map_append, hfirst, ih (linked_step h hx) hr, step_supply hx,
      hnext, List.length_append, ← List.range'_append_1, List.map_append]

/-- As long as the supply gives no identifier twice, one identifier means one payload. -/
theorem payload_unique {supply : IdSupply} {settings : BrokerSettings} {b : Broker} {m : Moment}
    (hb : Broker.new settings = .ok b) {steps : List Step} {answers : List Answer} {final : Session}
    (hr : (Session.new supply b m).run steps = .ok (answers, final))
    (hi : Set.InjOn supply.event (Set.Iio final.broker.metrics.eventsScheduled))
    {data data' : Payload} (h : (id, data) ∈ armings ((Session.new supply b m).deeds steps))
    (h' : (id, data') ∈ armings ((Session.new supply b m).deeds steps)) : data = data' := by
  have hl : (Session.new supply b m).broker.Linked := Broker.Linked.new hb
  have hzero : b.metrics.eventsScheduled = 0 := by
    rw [Broker.new_eq hb]
    rfl
  have hcount : final.broker.metrics.eventsScheduled =
      (armings ((Session.new supply b m).deeds steps)).length := by
    rw [run_replays hl hr, Broker.replay_scheduled]
    show b.metrics.eventsScheduled + _ = _
    rw [hzero, Nat.zero_add]
  have hnodup : ((armings ((Session.new supply b m).deeds steps)).map Prod.fst).Nodup := by
    rw [armings_ids hl hr]
    refine List.Nodup.map_on (fun i hi' j hj he => hi ?_ ?_ he) List.nodup_range'
    all_goals
      rw [Set.mem_Iio, hcount]
      have hstart : (Session.new supply b m).broker.metrics.eventsScheduled = 0 := hzero
      simp only [List.mem_range'_1, hstart] at hi' hj
      omega
  exact congrArg Prod.snd (List.inj_on_of_nodup_map hnodup h h' rfl)

theorem mem_exchanges {steps : List Step} {answers : List Answer}
    (hr : s.run steps = .ok (answers, s')) {y : (Session × Step) × Answer}
    (hy : y ∈ (s.trail steps).zip answers) : y.1 ∈ s.trail steps ∧
      (∃ after, y.1.1.step y.1.2 = .ok (y.2, after)) ∧
      armings (y.1.1.callerDeeds y.1.2) ⊆ armings (s.deeds steps) := by
  induction steps generalizing s answers with
  | nil => cases hy
  | cons x rest ih =>
    obtain ⟨a, mid, later, hx, hrest, rfl⟩ := run_cons_eq_ok_iff.mp hr
    rw [trail_eq hx, List.zip_cons_cons, List.mem_cons] at hy
    rw [trail_eq hx, armings_deeds_cons hx]
    rcases hy with rfl | hy
    · exact ⟨List.mem_cons_self, ⟨mid, hx⟩, List.subset_append_left _ _⟩
    · obtain ⟨hmem, hstep, hsub⟩ := ih hrest hy
      exact ⟨List.mem_cons_of_mem _ hmem, hstep, List.subset_append_of_subset_right _ hsub⟩

/-! ## Answers -/

/-- The channel whose events a step reads over HTTP, if there is one. -/
def reading? (s : Session) : Step → Option Channel
  | .http r => (request? r false).bind fun req =>
    if req.method = "GET" then Api.eventsOf? s.broker req.path else none
  | _ => none

/-- Reading the events of a channel shows what its buffer holds. -/
theorem answer_of_reading {c : Channel} (ha : s.act x = .ok (a, s')) (hx : s.reading? x = some c) :
    c ∈ s.broker.channels ∧ a = .response (.ok (.object [("events", .array
      (c.events.toList.map fun e =>
        .object [("data", .string (Api.ChannelEvent.ofDelivered e).data)]))])) := by
  cases x with
  | http r =>
    obtain ⟨req, hreq, hread⟩ := Option.bind_eq_some_iff.mp hx
    obtain ⟨hm, hread⟩ := Option.ite_none_right_eq_some.mp hread
    unfold Api.eventsOf? at hread
    split at hread
    · next raw hp =>
      obtain ⟨id, hid, hc⟩ := Option.bind_eq_some_iff.mp hread
      refine ⟨(Broker.mem_of_channel? hc).1, ?_⟩
      have hverb : (Api.Resource.channelEvents raw).verb? req.method = some .get := by
        rw [hm]
        rfl
      have hanswer : Api.answer s.broker s.fresh s.moment req (.channelEvents raw) .get =
          some (Api.respond .ofError (fun events => .ok (Api.ChannelEventsResponse.toJson
            ⟨events.map Api.ChannelEvent.ofDelivered⟩)) (s.broker.dequeue id s.moment)) :=
        congrArg some (Api.withName_of_named hid _)
      have hserve := Api.serve_of_answer hp hverb hanswer
      simp only [Session.act, http, hreq, hserve, Broker.dequeue, hc, Api.forMethod,
        if_neg (show req.method ≠ "HEAD" by rw [hm]; decide)] at ha
      cases ha
      simp only [Api.ChannelEventsResponse.toJson, List.map_map]
      rfl
    · cases hread
  | _ => cases hx

end Session

/-- The events that an answer hands out on the broker itself. -/
def Answer.delivered : Answer → List DeliveredEvent
  | .events es => es
  | .drained es _ => es
  | .received (.message e) => [e]
  | _ => []

/-- The frames that an answer shows. -/
def Answer.shown : Answer → List Frame
  | .frames fs => fs
  | _ => []

/-- Something holds of the events that an answer hands out or shows. -/
structure Answer.Carries (P : EventId → Payload → Prop) (a : Answer) : Prop where
  delivered : ∀ e ∈ a.delivered, P e.eventId e.data
  shown : ∀ e, .event e ∈ a.shown →
    ∃ id data, P id data ∧ e.eventId = id.toText ∧ e.data = Utf8.toStringLossy data

namespace Session

variable {P : EventId → Payload → Prop} {s s' : Session} {x : Step} {a : Answer}

theorem carries_of_none {a : Answer} (hd : a.delivered = []) (hs : a.shown = []) : a.Carries P :=
  ⟨hd ▸ List.forall_mem_nil _, fun _ he => absurd (hs ▸ he) List.not_mem_nil⟩

theorem carries_of_delivered {a : Answer} (hd : ∀ e ∈ a.delivered, P e.eventId e.data)
    (hs : a.shown = []) : a.Carries P :=
  ⟨hd, fun _ he => absurd (hs ▸ he) List.not_mem_nil⟩

theorem onBroker_carries {α : Type} {accept : α → Answer} {outcome : Broker.Outcome α}
    (h : ∀ v, outcome.1 = .ok v → (accept v).Carries P) :
    (s.onBroker accept outcome).1.Carries P := by
  obtain ⟨result, b⟩ := outcome
  cases result with
  | ok v => exact h v rfl
  | error e => exact carries_of_none rfl rfl

theorem onChannel_carries {α : Type} {accept : α → Answer} {text : String}
    {run : ChannelId → Broker.Outcome α}
    (h : ∀ id v, (run id).1 = .ok v → (accept v).Carries P) :
    (s.onChannel text accept run).1.Carries P := by
  unfold onChannel
  split
  · exact carries_of_none rfl rfl
  · next id _ => exact onBroker_carries (h id)

theorem carries_of_received {receipt : Receipt DeliveredEvent}
    (h : ∀ e, receipt = .message e → P e.eventId e.data) : (Answer.received receipt).Carries P := by
  refine carries_of_delivered (fun e he => ?_) (by cases receipt <;> rfl)
  cases receipt with
  | message e' =>
    rw [List.mem_singleton.mp he]
    exact h e' rfl
  | _ => cases he

theorem dequeue_eq_ok {b : Broker} {id : ChannelId} {m : Moment} {es : List DeliveredEvent}
    (h : (b.dequeue id m).1 = .ok es) : ∃ c, b.channel? id = some c ∧ c.events.toList = es := by
  unfold Broker.dequeue at h
  split at h
  · cases h
  · next c hc =>
    cases h
    exact ⟨c, hc, rfl⟩

theorem http_carries {r : RawRequest} (ha : s.http r = .ok (a, s')) : a.Carries P := by
  unfold http at ha
  split at ha
  · cases ha
    exact carries_of_none rfl rfl
  · obtain ⟨⟨reply, b⟩, -, he⟩ := bind_eq_ok_iff.mp ha
    cases reply <;> cases he <;> exact carries_of_none rfl rfl

theorem connect_carries {path : String} (ha : s.connect path = .ok (a, s')) : a.Carries P := by
  unfold connect at ha
  split at ha
  · cases ha
    exact carries_of_none rfl rfl
  · obtain ⟨⟨reply, b⟩, -, he⟩ := bind_eq_ok_iff.mp ha
    cases reply <;> cases he <;> exact carries_of_none rfl rfl

theorem send_carries {index : Nat} {message : Message} (ha : s.send index message = .ok (a, s')) :
    a.Carries P := by
  unfold send at ha
  split at ha
  · cases ha
    exact carries_of_none rfl rfl
  split at ha
  · cases ha
    exact carries_of_none rfl rfl
  split at ha
  · split at ha
    · cases ha
      exact carries_of_none rfl rfl
    · obtain ⟨_, -, he⟩ := map_eq_ok_iff.mp ha
      cases he
      exact carries_of_none rfl rfl
  · cases ha
    exact carries_of_none rfl rfl
  · cases ha
    exact carries_of_none rfl rfl

theorem closeSocket_carries {index : Nat} {abrupt : Bool}
    (ha : s.closeSocket index abrupt = .ok (a, s')) : a.Carries P := by
  unfold closeSocket at ha
  split at ha
  · cases ha
    exact carries_of_none rfl rfl
  · obtain ⟨_, -, he⟩ := bind_eq_ok_iff.mp ha
    cases he
    exact carries_of_none rfl rfl

/-- What is handed out or shown was there. -/
theorem Carries.answer (h : s.Carries P) (ha : s.act x = .ok (a, s')) : a.Carries P := by
  have hof : ∀ q : Answer × Session, s.act x = .ok q → q.1.Carries P → a.Carries P := by
    intro q hq hc
    rw [ha] at hq
    cases hq
    exact hc
  cases x with
  | createQueue | getQueue | deleteQueue | submit | createChannel =>
    exact hof _ rfl (onBroker_carries fun v _ => carries_of_none rfl rfl)
  | getChannel | deleteChannel =>
    exact hof _ rfl (onChannel_carries fun _ v _ => carries_of_none rfl rfl)
  | dequeue text =>
    refine hof _ rfl (onChannel_carries fun id es hes => carries_of_delivered ?_ rfl)
    obtain ⟨c, hc, rfl⟩ := dequeue_eq_ok hes
    exact h.broker.buffered c (Broker.mem_of_channel? hc).1
  | receive i max =>
    refine hof _ rfl ?_
    cases hsub : s.subscription? i with
    | none => exact carries_of_none rfl rfl
    | some sub =>
      exact carries_of_delivered (fun e he => h.broker.waiting.receivedUpTo he) rfl
  | receiveOne i =>
    refine hof _ rfl ?_
    cases hsub : s.subscription? i with
    | none => exact carries_of_none rfl rfl
    | some sub => exact carries_of_received fun e he => h.broker.waiting.received he
  | readSocket i =>
    refine hof _ rfl ?_
    unfold Session.readSocket
    cases hsocket : s.sockets[i]? with
    | none => exact carries_of_none rfl rfl
    | some socket =>
      exact ⟨List.forall_mem_nil _, h.sent socket (List.mem_of_getElem? hsocket)⟩
  | subscribe | advance =>
    obtain ⟨_, -, he⟩ := map_eq_ok_iff.mp ha
    cases he
    exact carries_of_none rfl rfl
  | unsubscribe i =>
    simp only [Session.act] at ha
    split at ha
    · cases ha
      exact carries_of_none rfl rfl
    · obtain ⟨_, -, he⟩ := map_eq_ok_iff.mp ha
      cases he
      exact carries_of_none rfl rfl
  | dropBroker limit =>
    refine hof _ rfl ?_
    simp only [dropBroker, driverEnd]
    split <;> exact carries_of_none rfl rfl
  | http => exact http_carries ha
  | connect => exact connect_carries ha
  | send => exact send_carries ha
  | closeSocket => exact closeSocket_carries ha
  | _ => exact hof _ rfl (carries_of_none rfl rfl)

end Session

/-! ## Payloads -/

/-- How a payload is shown: its valid parts as they are, each maximal invalid part as one
replacement character. The text has the bytes of the payload just when these are valid, and it is
shown as itself when it is sent again. -/
structure ShownAs (data : Payload) (text : String) : Prop where
  parts : Utf8.Shows data text.toList
  exact : Utf8.ofString text = data ↔ ByteArray.IsValidUTF8 data.toByteArray
  again : Utf8.toStringLossy (Utf8.ofString text) = text

theorem shownAs_toStringLossy (data : Payload) : ShownAs data (Utf8.toStringLossy data) where
  parts := by
    rw [Utf8.toStringLossy, String.toList_ofList]
    exact Utf8.shows_decodeLossy data
  exact := Utf8.ofString_toStringLossy_iff
  again := Utf8.toStringLossy_ofString _

/-- What an answer tells of an event: the channel view and the stream view show its payload as one
text, also on the wire, and what is handed out on the broker itself has the payload as it is. -/
structure Conveys (s : Session) (x : Step) (a : Answer) (id : EventId) (data : Payload)
    (text : String) : Prop where
  /-- Reading a channel shows its buffer, event by event. -/
  buffer : ∀ c, s.reading? x = some c → a = .response (.ok (.object [("events", .array
    (c.events.toList.map fun e =>
      .object [("data", .string (Api.ChannelEvent.ofDelivered e).data)]))]))
  channel : ∀ c, s.reading? x = some c → ∀ e ∈ c.events.toList, e.eventId = id →
    Api.ChannelEvent.ofDelivered e = ⟨text⟩
  stream : ∀ e, .event e ∈ a.shown → e.eventId = id.toText → e.data = text
  /-- The text of a frame is an object that has the payload's text as its data. -/
  frame : ∀ e, .event e ∈ a.shown → e.eventId = id.toText → e.toJson =
    .object [("event_id", .string id.toText), ("queue", .string e.queue),
      ("category", .string e.category), ("data", .string text),
      ("schedule_for", .nat e.scheduleFor), ("fired_at", .nat e.firedAt)]
  delivered : ∀ e ∈ a.delivered, e.eventId = id → e.data = data

namespace Session

/-- Payloads arrive as they were sent. An event that was accepted under an identifier is shown as
one text, to whoever reads it: each valid part of the payload as it is, and each maximal invalid
part as one replacement character. A payload that was posted as a text is shown as this text. -/
theorem payloads_arrive {supply : IdSupply} {settings : BrokerSettings} {b : Broker} {m : Moment}
    (hb : Broker.new settings = .ok b) {steps : List Step} {answers : List Answer} {final : Session}
    (hr : (Session.new supply b m).run steps = .ok (answers, final))
    (hi : Set.InjOn supply.event (Set.Iio final.broker.metrics.eventsScheduled))
    {s : Session} {x : Step} {a : Answer} {event : NewEvent} {id : EventId}
    (hx : ((s, x), a) ∈ ((Session.new supply b m).trail steps).zip answers)
    (he : x.submission? = some event) (ha : a.Accepts id) :
    ∃ text, ShownAs event.data text ∧
      (∀ r body, x = .http r → posted? r = some body → body.data = text) ∧
      ∀ y ∈ ((Session.new supply b m).trail steps).zip answers,
        Conveys y.1.1 y.1.2 y.2 id event.data text := by
  have harmed : (id, event.data) ∈ armings ((Session.new supply b m).deeds steps) := by
    obtain ⟨-, ⟨after, hstep⟩, hsub⟩ := mem_exchanges hr hx
    obtain ⟨acted, hacted, -⟩ := step_eq_ok_iff.mp hstep
    obtain ⟨hsound, rfl⟩ := accepted_of_act hacted he ha
    refine hsub ?_
    rw [armings_callerDeeds, he, Option.elim_some, if_pos hsound]
    exact List.mem_singleton_self _
  have honly {data : Payload}
      (h : (id, data) ∈ armings ((Session.new supply b m).deeds steps)) : data = event.data :=
    payload_unique hb hr hi h harmed
  refine ⟨Utf8.toStringLossy event.data, shownAs_toStringLossy _, ?_, fun y hy => ?_⟩
  · rintro r body rfl hbody
    simp only [Step.submission?, hbody, Option.map_some, Option.some.injEq] at he
    rw [← he, Api.EventCreateRequest.toEvent, Utf8.toStringLossy_ofString]
  · obtain ⟨hmem, ⟨after, hstep⟩, -⟩ := mem_exchanges hr hy
    obtain ⟨acted, hacted, -⟩ := step_eq_ok_iff.mp hstep
    have hcarries : y.1.1.Carries fun id data =>
        (id, data) ∈ armings ((Session.new supply b m).deeds steps) :=
      (Carries.new hb).run (fun _ he => he) hr y.1 hmem
    have hanswer := hcarries.answer hacted
    have hstream : ∀ e, .event e ∈ y.2.shown → e.eventId = id.toText →
        e.data = Utf8.toStringLossy event.data := by
      intro e he hid
      obtain ⟨id', data, hdata, hid', he⟩ := hanswer.shown e he
      obtain rfl : id' = id := EventId.toText_injective (hid'.symm.trans hid)
      rw [he, honly hdata]
    refine ⟨fun c hc => (answer_of_reading hacted hc).2, fun c hc e he hid => ?_, hstream,
      fun e he hid => ?_, fun e he hid => ?_⟩
    · have hdata := honly (hid ▸ hcarries.broker.buffered c (answer_of_reading hacted hc).1 e he)
      rw [Api.ChannelEvent.ofDelivered, hdata]
    · rw [Api.StreamEvent.toJson, hid, hstream e he hid]
    · exact honly (hid ▸ hanswer.delivered e he)

/-- A payload that is not valid at its end goes to a channel and to a socket, and both are read. -/
def readingBoth : List Step :=
  [.createQueue "jobs", .submit ⟨[65, 0xFF], none, [⟨"jobs", 5, none⟩]⟩,
    .createChannel ["jobs"] ⟨0, 1⟩, .connect "/ws/events/jobs", .fire (some 7), .readSocket 0,
    .http ⟨"GET", "/channels/00000000-0000-0000-0000-000000000000/events", none, []⟩]

/-- Whether an answer accepts an event under an identifier. -/
def acceptsAs (id : EventId) : Answer → Bool
  | .accepted id' => id' == id
  | _ => false

theorem of_acceptsAs {id : EventId} {a : Answer} (h : acceptsAs id a = true) : a = .accepted id := by
  cases a with
  | accepted id' => exact congrArg Answer.accepted (beq_iff_eq.mp h)
  | _ => cases h

/-- Whether an answer shows one frame, and it is about an event. -/
def showsFrame (id : EventId) : Answer → Bool
  | .frames [.event f] => f.eventId == id.toText
  | _ => false

theorem of_showsFrame {id : EventId} {a : Answer} (h : showsFrame id a = true) :
    ∃ f, a = .frames [.event f] ∧ f.eventId = id.toText := by
  unfold showsFrame at h
  split at h
  · next f => exact ⟨f, rfl, beq_iff_eq.mp h⟩
  · cases h

/-- Whether a step reads a channel that holds one event. -/
def readsBuffer (id : EventId) (y : Session × Step) : Bool :=
  (y.1.reading? y.2).any fun c => c.events.toList.map (·.eventId) == [id]

theorem of_readsBuffer {id : EventId} {y : Session × Step} (h : readsBuffer id y = true) :
    ∃ c e, y.1.reading? y.2 = some c ∧ c.events.toList = [e] ∧ e.eventId = id := by
  obtain ⟨c, hc, hevents⟩ := (Option.any_eq_true _ _).mp h
  rw [beq_iff_eq, List.map_eq_singleton_iff] at hevents
  obtain ⟨e, he, hid⟩ := hevents
  exact ⟨c, e, hc, he, hid⟩

/-- The payload is shown with one replacement character, in the frame and in the events of the
channel. -/
theorem payloads_arrive_once :
    ∃ b answers final id text exchanges, Broker.new {} = .ok b ∧
      (Session.new .counting b ⟨0, 0⟩).run readingBoth = .ok (answers, final) ∧
      exchanges = ((Session.new .counting b ⟨0, 0⟩).trail readingBoth).zip answers ∧
      answers[1]? = some (.accepted id) ∧ text = "A\uFFFD" ∧
      (∀ y ∈ exchanges, Conveys y.1.1 y.1.2 y.2 id [65, 0xFF] text) ∧
      (∃ y ∈ exchanges, ∃ f, y.2 = .frames [.event f] ∧ f.data = text) ∧
      ∃ y ∈ exchanges, y.2 = .response
        (.ok (.object [("events", .array [.object [("data", .string text)]])])) := by
  obtain ⟨b, hb⟩ : ∃ b, Broker.new {} = .ok b := ⟨_, rfl⟩
  obtain ⟨answers, final, hr, hp⟩ := of_endsWith
    (r := (Session.new .counting b ⟨0, 0⟩).run readingBoth)
    (p := fun answers s => s.broker.metrics.eventsScheduled == 1 &&
      (answers[1]?.any (acceptsAs (IdSupply.counting.event 0)) &&
      ((((Session.new .counting b ⟨0, 0⟩).trail readingBoth).zip answers).any
        (fun y => showsFrame (IdSupply.counting.event 0) y.2) &&
      (((Session.new .counting b ⟨0, 0⟩).trail readingBoth).zip answers).any
        (fun y => readsBuffer (IdSupply.counting.event 0) y.1))))
    (by cases hb; decide +kernel)
  simp only [Bool.and_eq_true, beq_iff_eq, Option.any_eq_true, List.any_eq_true] at hp
  obtain ⟨hn, ⟨a, ha, haccepted⟩, ⟨y, hy, hframe⟩, z, hz, hbuffer⟩ := hp
  obtain rfl := of_acceptsAs haccepted
  obtain ⟨f, hf, hfid⟩ := of_showsFrame hframe
  obtain ⟨c, e, hc, he, hid⟩ := of_readsBuffer hbuffer
  have hi : Set.InjOn IdSupply.counting.event (Set.Iio final.broker.metrics.eventsScheduled) := by
    rw [hn]
    exact injOn_Iio_one _
  -- the submission is the second of the exchanges
  have hsubmitted : ∃ s, ((s, .submit ⟨[65, 0xFF], none, [⟨"jobs", 5, none⟩]⟩),
      .accepted (IdSupply.counting.event 0)) ∈
        ((Session.new .counting b ⟨0, 0⟩).trail readingBoth).zip answers := by
    obtain ⟨a₀, s₁, later, hs₁, hr₁, rfl⟩ := run_cons_eq_ok_iff.mp hr
    obtain ⟨a₁, s₂, later, hs₂, -, rfl⟩ := run_cons_eq_ok_iff.mp hr₁
    obtain rfl : a₁ = .accepted _ := Option.some.inj ha
    refine ⟨s₁, ?_⟩
    rw [readingBoth, trail_eq hs₁, trail_eq hs₂]
    exact List.mem_cons_of_mem _ List.mem_cons_self
  obtain ⟨s, hs⟩ := hsubmitted
  obtain ⟨text, hshown, -, hconveys⟩ := payloads_arrive hb hr hi hs rfl (.inl rfl)
  have htext : text.toList = "A\uFFFD".toList := by
    rw [Utf8.shows_iff.mp hshown.parts]
    decide +kernel
  have hframe : f.data = text :=
    (hconveys y hy).stream f (by rw [hf]; exact List.mem_cons_self) hfid
  have hevent : Api.ChannelEvent.ofDelivered e = ⟨text⟩ :=
    (hconveys z hz).channel c hc e (by rw [he]; exact List.mem_cons_self) hid
  have hbody := (hconveys z hz).buffer c hc
  rw [he, List.map_singleton, hevent] at hbody
  exact ⟨b, answers, final, _, text, _, hb, hr, rfl, ha, String.toList_injective htext, hconveys,
    ⟨y, hy, f, hf, hframe⟩, z, hz, hbody⟩

end Session

end EventBroker
