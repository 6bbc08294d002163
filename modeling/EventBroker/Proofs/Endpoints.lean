import EventBroker.Proofs.Refusals

/-! # Requests and the calls that they stand for

A request to a queue, an event, a channel or the number of subscribers does nothing of its own.
`Api.calls?` lists the calls of the broker that it stands for, with what its path and its body say
as their arguments, and `Api.told` says how the answer to a call is put into a response. A session
that gets the request ends up where the calls lead, and responds with what the last call answers
(`Session.requests_refine_calls`); a name or a body that cannot be read is refused, and nothing is
done.
-/
set_option autoImplicit false

namespace EventBroker

namespace Api
open Http

/-- Whether a resource belongs to the broker: its queues, events, channels or subscribers. -/
def Resource.isBrokers : Resource → Bool
  | .health | .description | .stream _ => false
  | _ => true

/-- Whether a resource is on the queue routes, which say nothing about a queue that is not there. -/
def Resource.isQueues : Resource → Bool
  | .queues | .queue _ => true
  | _ => false

/-- The calls that a request to a resource stands for; none if its name or its body cannot be read.
A rule of an event is taken over field by field. -/
def calls? (req : Request) : Resource → Verb → Option (List Step)
  | .connections, .get => some [.subscriberCount]
  | .queues, .get => some [.listQueues]
  | .queues, .post =>
    (body? QueueCreateRequest.decode req).map fun body =>
      [.createQueue body.id, .getQueue body.id]
  | .queue raw, .get => (Percent.decodeText? raw).map fun id => [.getQueue id]
  | .queue raw, .delete => (Percent.decodeText? raw).map fun id => [.deleteQueue id]
  | .events, .post =>
    (body? EventCreateRequest.decode req).map fun body =>
      [.submit {
        data := Utf8.ofString body.data
        category := body.category
        rules := body.scheduleRules.map fun rule => {
          queue := rule.queue
          fireAt := rule.scheduleFor
          recurrence := rule.recurringOptions.map fun o =>
            { times := o.times, delay := o.delay } } }]
  | .channels, .get => some [.listChannels]
  | .channels, .post =>
    (body? ChannelCreateRequest.decode req).map fun body =>
      [.createChannel body.queues
        { time := body.bufferOptions.time, size := body.bufferOptions.size }]
  | .channel raw, .get => (Percent.decodeText? raw).map fun text => [.getChannel text]
  | .channel raw, .delete => (Percent.decodeText? raw).map fun text => [.deleteChannel text]
  | .channelEvents raw, .get => (Percent.decodeText? raw).map fun text => [.dequeue text]
  | _, _ => none

/-! ## Answers as responses -/

/-- What is known about a queue, in JSON. -/
def queueJson (q : QueueInfo) : Json :=
  .object [("id", .string q.id), ("pending_events", .number q.pending),
    ("delivered_events", .number q.delivered)]

/-- What is known about a channel, in JSON. -/
def channelJson (c : ChannelInfo) : Json :=
  .object [("channel_id", .string c.id.toText), ("queues", .array (c.queues.map .string)),
    ("buffer_options",
      .object [("time", .number c.options.time), ("size", .number c.options.size)]),
    ("buffered_events", .number c.buffered), ("ready", .bool c.ready)]

/-- A response to what is wrong with a request. -/
def validationError (message : String) : Response :=
  .json 400 (.object [("code", .string "validation_error"), ("message", .string message),
    ("request_id", .null)])

/-- The response to a refusal: 404 for what is not there and 400 for what is not sound. None for the
one refusal that no call gives. -/
def refusal? (resource : Resource) (e : BrokerError) : Option Response :=
  match e with
  | .queueNotFound id =>
    some (if resource.isQueues then .empty 404 else .text 404 (id ++ " queue does not exist"))
  | .channelNotFound id => some (.text 404 (id ++ " channel does not exist"))
  | .capacityTooSmall => none
  | e => some (validationError e.message)

/-- How the answer to a call is put into a response; none for an answer that no call gives. A
payload is shown as text. -/
def told (resource : Resource) : Answer → Option Response
  | .number n => some (.json 200 (.object [("clients_connected", .number n)]))
  | .queues qs => some (.json 200 (.object [("queues", .array (qs.map queueJson))]))
  | .queue q => some (.json 200 (queueJson q))
  | .accepted id => some (.json 200 (.object [("event_id", .string id.toText)]))
  | .channels ids =>
    some (.json 200 (.object [("channels", .array (ids.map fun id => .string id.toText))]))
  | .channelCreated id => some (.json 200 (.object [("channel_id", .string id.toText)]))
  | .channel c => some (.json 200 (channelJson c))
  | .events es =>
    some (.json 200 (.object [("events",
      .array (es.map fun e => .object [("data", .string (Utf8.toStringLossy e.data))]))]))
  | .deleted => some (.empty 200)
  | .invalidId text => some (.text 404 (text ++ " channel does not exist"))
  | .refused e => refusal? resource e
  | _ => none

/-- The response to a request whose body, if it posts one, or whose name cannot be read. -/
def Unreadable (verb : Verb) (r : Response) : Prop :=
  match verb with
  | .post => ∃ message, r = validationError message
  | _ => ∃ parameter, r = .text 400 ("Invalid URL: Invalid UTF-8 in `" ++ parameter ++ "`")

/-! ## What is never said -/

/-- Whether an operation, if it is refused, is refused for a reason that callers can be told. -/
def Explains {α : Type} (outcome : Broker.Outcome α) : Prop :=
  outcome.1 ≠ .error .capacityTooSmall

theorem explains_ok {α : Type} (a : α) (b : Broker) : Explains (.ok a, b) := by
  intro h
  cases h

theorem explains_error {α : Type} {e : BrokerError} (he : e ≠ .capacityTooSmall) (b : Broker) :
    Explains (α := α) (.error e, b) := by
  intro h
  exact he (Except.error.inj h)

theorem explains_getQueue (b : Broker) (id : String) : Explains (b.getQueue id) := by
  unfold Broker.getQueue
  split
  · exact explains_ok _ _
  · exact explains_error (fun h => by cases h) _

theorem explains_createQueue (b : Broker) (id : String) : Explains (b.createQueue id) := by
  unfold Broker.createQueue
  split
  · exact explains_error (fun h => by cases h) _
  · split
    · exact explains_ok _ _
    · exact explains_ok _ _

theorem explains_deleteQueue (b : Broker) (id : String) : Explains (b.deleteQueue id) := by
  unfold Broker.deleteQueue Broker.retire
  cases b.registry.find? id with
  | none => exact explains_error (fun h => by cases h) _
  | some q => exact explains_ok _ _

theorem resolve_explains {r : Registry} {ids : List String} {e : BrokerError}
    (h : r.resolve ids = .error e) : e ≠ .capacityTooSmall := by
  obtain ⟨id, -, -, rfl⟩ := Registry.resolve_error h
  intro he
  cases he

theorem occurrences_explains (rule : ScheduleRule) {e : BrokerError}
    (h : rule.occurrences = .error e) : e ≠ .capacityTooSmall := by
  unfold ScheduleRule.occurrences at h
  intro he
  subst he
  split at h
  · cases h
  · split at h
    · cases h
    · split at h <;> cases h

theorem totalOccurrences_explains (rules : List ScheduleRule) {e : BrokerError}
    (h : totalOccurrences rules = .error e) : e ≠ .capacityTooSmall := by
  unfold totalOccurrences at h
  generalize 0 = sum at h
  induction rules generalizing sum with
  | nil => cases h
  | cons rule rest ih =>
    rw [List.foldlM_cons] at h
    cases ho : rule.occurrences with
    | error e' =>
      rw [ho] at h
      cases h
      exact occurrences_explains rule ho
    | ok n =>
      rw [ho] at h
      exact ih _ h

theorem explains_submit (b : Broker) (id : EventId) (event : NewEvent) :
    Explains (b.submit id event) := by
  unfold Broker.submit
  cases ht : b.targets event with
  | ok targets => exact explains_ok _ _
  | error e =>
    apply explains_error
    unfold Broker.targets at ht
    split at ht
    · cases ht
      intro he
      cases he
    · split at ht
      · next he =>
        cases ht
        exact totalOccurrences_explains _ he
      · split at ht
        · cases ht
          intro he
          cases he
        · exact resolve_explains ht

theorem explains_createChannel (b : Broker) (id : ChannelId) (queues : List String)
    (options : BufferOptions) (m : Moment) : Explains (b.createChannel id queues options m) := by
  unfold Broker.createChannel
  split
  · exact explains_error (fun h => by cases h) _
  · split
    · exact explains_error (fun h => by cases h) _
    · split
      · next he => exact explains_error (resolve_explains he) _
      · exact explains_ok _ _

theorem explains_getChannel (b : Broker) (id : ChannelId) (m : Moment) :
    Explains (b.getChannel id m) := by
  unfold Broker.getChannel
  split
  · exact explains_error (fun h => by cases h) _
  · exact explains_ok _ _

theorem explains_deleteChannel (b : Broker) (id : ChannelId) : Explains (b.deleteChannel id) := by
  unfold Broker.deleteChannel
  split
  · exact explains_error (fun h => by cases h) _
  · exact explains_ok _ _

theorem explains_dequeue (b : Broker) (id : ChannelId) (m : Moment) :
    Explains (b.dequeue id m) := by
  unfold Broker.dequeue
  split
  · exact explains_error (fun h => by cases h) _
  · exact explains_ok _ _

end Api

namespace Session
open Api

variable {s : Session} {r : RawRequest} {req : Http.Request} {resource : Resource} {verb : Verb}

/-- Makes calls one after another, up to the first one that fails. -/
def callAll (s : Session) : List Step → Except Crash (List Answer × Session)
  | [] => .ok ([], s)
  | x :: rest => do
    let (a, s) ← s.act x
    if a.isFailure then return ([a], s)
    let (answers, s) ← callAll s rest
    return (a :: answers, s)

theorem callAll_one {x : Step} {a : Answer} {s' : Session} (h : s.act x = .ok (a, s')) :
    s.callAll [x] = .ok ([a], s') := by
  simp only [callAll, h, bind, Except.bind, pure, Except.pure]
  split <;> rfl

/-- A response says what calls answer in the end, and the session is where they lead. -/
def Tells (s : Session) (resource : Resource) (calls : List Step)
    (outcome : Http.Response × Broker) : Prop :=
  ∃ answers a, s.callAll calls = .ok (answers ++ [a], { s with broker := outcome.2 }) ∧
    told resource a = some outcome.1

/-! ## One call -/

theorem tells_answer {x : Step} {a : Answer} {response : Http.Response} {b : Broker}
    (h : s.act x = .ok (a, { s with broker := b })) (ht : told resource a = some response) :
    s.Tells resource [x] (response, b) :=
  ⟨[], a, callAll_one h, ht⟩

/-- How a refusal is answered on a route. -/
def Refuses (resource : Resource) (refuse : BrokerError → Http.Response) : Prop :=
  ∀ e, e ≠ .capacityTooSmall → refusal? resource e = some (refuse e)

theorem refuses_queues (h : resource.isQueues = true) :
    Refuses resource Http.Response.ofQueueError := by
  intro e he
  cases e with
  | queueNotFound id =>
    rw [refusal?, h]
    rfl
  | capacityTooSmall => exact absurd rfl he
  | _ => rfl

theorem refuses_others (h : resource.isQueues = false) :
    Refuses resource Http.Response.ofError := by
  intro e he
  cases e with
  | queueNotFound id =>
    rw [refusal?, h]
    rfl
  | capacityTooSmall => exact absurd rfl he
  | _ => rfl

theorem tells_respond {α : Type} {x : Step} (accept : α → Answer) {outcome : Broker.Outcome α}
    {refuse : BrokerError → Http.Response} {encode : α → Http.Response}
    (hx : s.act x = .ok (s.onBroker accept outcome)) (ho : Explains outcome)
    (hr : Refuses resource refuse) (ha : ∀ a, told resource (accept a) = some (encode a)) :
    s.Tells resource [x] (respond refuse encode outcome) := by
  obtain ⟨e | a, b⟩ := outcome
  · have hact : s.act x = .ok (.refused e, { s with broker := b }) := hx
    have he : e ≠ .capacityTooSmall := fun he => ho (congrArg Except.error he)
    exact tells_answer hact (hr e he)
  · have hact : s.act x = .ok (accept a, { s with broker := b }) := hx
    exact tells_answer hact (ha a)

/-- A text that is no identifier is answered like an identifier that names nothing. -/
theorem tells_withChannel {α : Type} {x : Step} {text : String} (accept : α → Answer)
    {run : ChannelId → Broker.Outcome α} {encode : α → Http.Response}
    (hx : s.act x = .ok (s.onChannel text accept run)) (ho : ∀ id, Explains (run id))
    (hq : resource.isQueues = false) (ha : ∀ a, told resource (accept a) = some (encode a)) :
    s.Tells resource [x]
      (withChannel s.broker text fun id => respond .ofError encode (run id)) := by
  unfold withChannel
  cases hp : ChannelId.parse? text with
  | none =>
    have ht : s.act x = .ok (.invalidId text, { s with broker := s.broker }) := by
      rw [hx, onChannel, hp]
    exact tells_answer ht rfl
  | some id =>
    have ht : s.act x = .ok (s.onBroker accept (run id)) := by
      rw [hx, onChannel, hp]
      rfl
    exact tells_respond accept ht (ho id) (refuses_others hq) ha

/-! ## Registering a queue takes two calls -/

theorem tells_createQueue (hq : resource.isQueues = true) (id : String) :
    s.Tells resource [.createQueue id, .getQueue id]
      (respond .ofQueueError (fun q => .ok (QueueResponse.ofInfo q).toJson)
        (Api.createQueue s.broker id)) := by
  have hsaid := explains_createQueue s.broker id
  have hx : s.act (.createQueue id) = .ok (s.onBroker .created (s.broker.createQueue id)) := rfl
  unfold Api.createQueue
  generalize s.broker.createQueue id = created at hsaid hx
  obtain ⟨e | isNew, b⟩ := created
  · have hact : s.act (.createQueue id) = .ok (.refused e, { s with broker := b }) := hx
    have he : e ≠ .capacityTooSmall := fun he => hsaid (congrArg Except.error he)
    refine ⟨[], .refused e, ?_, refuses_queues hq e he⟩
    rw [callAll, hact]
    rfl
  · have hact : s.act (.createQueue id) = .ok (.created isNew, { s with broker := b }) := hx
    have hget : ({ s with broker := b } : Session).Tells resource [.getQueue id]
        (respond .ofQueueError (fun q => .ok (QueueResponse.ofInfo q).toJson) (b.getQueue id)) :=
      tells_respond Answer.queue rfl (explains_getQueue b id) (refuses_queues hq)
        fun _ => rfl
    obtain ⟨answers, a, hcalls, ht⟩ := hget
    refine ⟨.created isNew :: answers, a, ?_, ht⟩
    rw [callAll, hact]
    simp only [bind, Except.bind, Answer.isFailure, hcalls]
    rfl

/-! ## Every request -/

theorem body?_eq_none_iff {α : Type} {decode : Json.Decoder α} :
    body? decode req = none ↔ ∃ message, readBody decode req = .error message := by
  unfold body?
  cases readBody decode req with
  | error message => simp [Except.toOption]
  | ok a => simp [Except.toOption]

theorem withBody_of_body? {α : Type} {b : Broker} {decode : Json.Decoder α} {body : α}
    {run : α → Http.Response × Broker} (h : body? decode req = some body) :
    withBody b decode req run = run body := by
  unfold body? at h
  unfold withBody
  cases hr : readBody decode req with
  | error message =>
    rw [hr] at h
    cases h
  | ok a =>
    rw [hr] at h
    cases h
    rfl

theorem withBody_of_unreadable {α : Type} {b : Broker} {decode : Json.Decoder α}
    (run : α → Http.Response × Broker) (h : body? decode req = none) :
    ∃ message, withBody b decode req run = (validationError message, b) := by
  obtain ⟨message, hm⟩ := body?_eq_none_iff.mp h
  refine ⟨message, ?_⟩
  rw [withBody, hm]
  rfl

/-- A request is settled: it is answered with what the calls it stands for say, or it cannot be read
and nothing is done. -/
def Settles (s : Session) (resource : Resource) (verb : Verb) (calls : Option (List Step))
    (outcome : Http.Response × Broker) : Prop :=
  match calls with
  | some calls => s.Tells resource calls outcome
  | none => Unreadable verb outcome.1 ∧ outcome.2 = s.broker

theorem settles_withBody {α : Type} {decode : Json.Decoder α} {run : α → Http.Response × Broker}
    {calls : α → List Step} (h : ∀ body, s.Tells resource (calls body) (run body)) :
    s.Settles resource .post ((body? decode req).map calls) (withBody s.broker decode req run) := by
  cases hd : body? decode req with
  | none =>
    obtain ⟨message, hm⟩ := withBody_of_unreadable (b := s.broker) run hd
    rw [hm]
    exact ⟨⟨message, rfl⟩, rfl⟩
  | some body =>
    rw [withBody_of_body? hd]
    exact h body

theorem settles_withName {parameter raw : String} {run : String → Http.Response × Broker}
    {calls : String → List Step} (hv : verb ≠ .post)
    (h : ∀ name, s.Tells resource (calls name) (run name)) :
    s.Settles resource verb ((Percent.decodeText? raw).map calls)
      (withName parameter raw (·, s.broker) run) := by
  unfold withName
  cases Percent.decodeText? raw with
  | none =>
    refine ⟨?_, rfl⟩
    cases verb with
    | post => exact absurd rfl hv
    | get | delete => exact ⟨parameter, rfl⟩
  | some name => exact h name

/-- Every request that asks something of the broker is settled. -/
theorem answer_settles (s : Session) (req : Http.Request) {resource : Resource} {verb : Verb}
    (hb : resource.isBrokers = true) (hv : verb ∈ resource.verbs) :
    ∃ outcome, answer s.broker s.fresh s.moment req resource verb = some outcome ∧
      s.Settles resource verb (calls? req resource verb) outcome := by
  cases resource with
  | health | description | stream _ => cases hb
  | connections =>
    obtain rfl : verb = .get := by simpa [Resource.verbs] using hv
    exact ⟨_, rfl, tells_answer rfl rfl⟩
  | queues =>
    have hverb : verb = .get ∨ verb = .post := by simpa [Resource.verbs] using hv
    rcases hverb with rfl | rfl
    · refine ⟨_, rfl, tells_answer rfl ?_⟩
      simp only [told, QueueListResponse.toJson, List.map_map]
      rfl
    · exact ⟨_, rfl, settles_withBody fun body => tells_createQueue rfl body.id⟩
  | queue raw =>
    have hverb : verb = .get ∨ verb = .delete := by simpa [Resource.verbs] using hv
    rcases hverb with rfl | rfl
    · exact ⟨_, rfl, settles_withName (by decide) fun id =>
        tells_respond Answer.queue rfl (explains_getQueue _ id) (refuses_queues rfl)
          fun _ => rfl⟩
    · exact ⟨_, rfl, settles_withName (by decide) fun id =>
        tells_respond (fun _ => .deleted) rfl (explains_deleteQueue _ id)
          (refuses_queues rfl) fun _ => rfl⟩
  | events =>
    obtain rfl : verb = .post := by simpa [Resource.verbs] using hv
    exact ⟨_, rfl, settles_withBody fun body =>
      tells_respond Answer.accepted rfl (explains_submit _ _ _) (refuses_others rfl)
        fun _ => rfl⟩
  | channels =>
    have hverb : verb = .get ∨ verb = .post := by simpa [Resource.verbs] using hv
    rcases hverb with rfl | rfl
    · refine ⟨_, rfl, tells_answer rfl ?_⟩
      simp only [told, ChannelListResponse.toJson, List.map_map]
      rfl
    · exact ⟨_, rfl, settles_withBody fun body =>
        tells_respond Answer.channelCreated rfl (explains_createChannel _ _ _ _ _)
          (refuses_others rfl) fun _ => rfl⟩
  | channel raw =>
    have hverb : verb = .get ∨ verb = .delete := by simpa [Resource.verbs] using hv
    rcases hverb with rfl | rfl
    · exact ⟨_, rfl, settles_withName (by decide) fun text =>
        tells_withChannel Answer.channel rfl (fun id => explains_getChannel _ id _) rfl
          fun _ => rfl⟩
    · exact ⟨_, rfl, settles_withName (by decide) fun text =>
        tells_withChannel (fun _ => .deleted) rfl (fun id => explains_deleteChannel _ id)
          rfl fun _ => rfl⟩
  | channelEvents raw =>
    obtain rfl : verb = .get := by simpa [Resource.verbs] using hv
    refine ⟨_, rfl, settles_withName (by decide) fun text =>
      tells_withChannel Answer.events rfl (fun id => explains_dequeue _ id _) rfl
        fun es => ?_⟩
    simp only [told, ChannelEventsResponse.toJson, List.map_map]
    rfl

theorem http_of_answer {b : Broker} {response : Http.Response}
    (hreq : request? r false = some req) (hpath : Resource.ofPath? req.path = some resource)
    (hverb : resource.verb? req.method = some verb)
    (ha : answer s.broker s.fresh s.moment req resource verb = some (response, b)) :
    s.act (.http r) =
      .ok (.response (forMethod req.method response), { s with broker := b }) := by
  show s.http r = _
  rw [http, hreq]
  simp only [serve_of_answer hpath hverb ha]
  rfl

/-! ## No internal error -/

theorem refusal?_status {e : BrokerError} {response : Http.Response}
    (h : refusal? resource e = some response) : response.status = 400 ∨ response.status = 404 := by
  cases e with
  | capacityTooSmall => cases h
  | queueNotFound id =>
    cases h
    right
    split <;> rfl
  | channelNotFound id =>
    cases h
    exact .inr rfl
  | _ =>
    cases h
    exact .inl rfl

theorem told_status {a : Answer} {response : Http.Response}
    (h : told resource a = some response) : response.status ≠ 500 := by
  cases a with
  | refused e =>
    have hs := refusal?_status h
    omega
  | number | queues | queue | accepted | channels | channelCreated | channel | events | deleted
  | invalidId =>
    cases h
    exact Nat.ne_of_beq_eq_false rfl
  | _ => cases h

theorem unreadable_status {response : Http.Response} (h : Unreadable verb response) :
    response.status ≠ 500 := by
  cases verb with
  | post =>
    obtain ⟨message, rfl⟩ := h
    exact Nat.ne_of_beq_eq_false rfl
  | get | delete =>
    obtain ⟨parameter, rfl⟩ := h
    exact Nat.ne_of_beq_eq_false rfl

theorem Settles.status {calls : Option (List Step)} {outcome : Http.Response × Broker}
    (h : s.Settles resource verb calls outcome) : outcome.1.status ≠ 500 := by
  unfold Settles at h
  split at h
  · obtain ⟨_, _, -, ht⟩ := h
    exact told_status ht
  · exact unreadable_status h.1

theorem openStream_status {b b' : Broker} {raw : String} {response : Http.Response}
    (h : openStream b req raw = .ok (.response response, b')) : response.status ≠ 500 := by
  unfold openStream at h
  split at h
  · cases h
    exact Nat.ne_of_beq_eq_false rfl
  · split at h
    · cases h
      exact Nat.ne_of_beq_eq_false rfl
    · unfold withName at h
      split at h
      · cases h
        exact Nat.ne_of_beq_eq_false rfl
      · obtain ⟨_, -, he⟩ := map_eq_ok_iff.mp h
        cases he

/-- Resources that do not belong to the broker say the same whatever state it is in. -/
theorem answer_status {outcome : Http.Response × Broker}
    (ha : answer s.broker s.fresh s.moment req resource verb = some outcome)
    (hv : verb ∈ resource.verbs) : outcome.1.status ≠ 500 := by
  by_cases hb : resource.isBrokers = true
  · obtain ⟨outcome', ho, hsettles⟩ := answer_settles s req hb hv
    rw [ha] at ho
    cases ho
    exact hsettles.status
  · cases resource with
    | health | description =>
      cases verb with
      | get =>
        cases ha
        exact Nat.ne_of_beq_eq_false rfl
      | post | delete => cases ha
    | stream raw => cases verb <;> cases ha
    | _ => exact absurd rfl hb

theorem serve_status {b : Broker} {response : Http.Response}
    (h : serve s.broker s.fresh s.moment req = .ok (.response response, b)) :
    response.status ≠ 500 := by
  unfold serve at h
  split at h
  · cases h
    exact Nat.ne_of_beq_eq_false rfl
  next resource hpath =>
  split at h
  · cases h
    exact Nat.ne_of_beq_eq_false rfl
  · obtain ⟨⟨reply, b₁⟩, ho, he⟩ := map_eq_ok_iff.mp h
    cases reply with
    | stream sub => cases he
    | response r₁ =>
      cases he
      rw [forMethod_status]
      exact openStream_status ho
  · next verb _ hverb =>
    split at h
    · next r₁ b₁ ha =>
      cases h
      rw [forMethod_status]
      exact answer_status ha (List.mem_of_find?_eq_some hverb)
    · cases h
      exact Nat.ne_of_beq_eq_false rfl

theorem http_status {response : Http.Response} {s' : Session}
    (h : s.act (.http r) = .ok (.response response, s')) : response.status ≠ 500 := by
  change s.http r = _ at h
  unfold http at h
  split at h
  · cases h
  · obtain ⟨⟨reply, b⟩, hv, he⟩ := bind_eq_ok_iff.mp h
    cases reply with
    | response r₁ =>
      cases he
      exact serve_status hv
    | stream sub =>
      cases he
      exact Nat.ne_of_beq_eq_false rfl

theorem connect_status {path : String} {response : Http.Response} {s' : Session}
    (h : s.act (.connect path) = .ok (.handshakeFailed response, s')) :
    response.status ≠ 500 := by
  change s.connect path = _ at h
  unfold connect at h
  split at h
  · cases h
  · obtain ⟨⟨reply, b⟩, hv, he⟩ := bind_eq_ok_iff.mp h
    cases reply with
    | response r₁ =>
      cases he
      exact serve_status hv
    | stream sub => cases he

/-! ## Requests refine calls -/

/-- A request to a queue, an event, a channel or the number of subscribers, in whatever session:
where its name and its body can be read, it leaves the session that the calls it stands for lead to,
and responds with what the last of these answers, be it a result or a refusal. Where they cannot be
read, it says so with 400, and nothing is done. (To `HEAD`, the response goes without its body.) No
request at all, to the broker or to anything else, is answered with 500. -/
theorem requests_refine_calls (s : Session) :
    (∀ r req resource verb, request? r false = some req →
      Resource.ofPath? req.path = some resource → resource.verb? req.method = some verb →
      resource.isBrokers = true →
      ∃ response s',
        s.act (.http r) = .ok (.response (forMethod req.method response), s') ∧
        match calls? req resource verb with
        | some calls => ∃ answers a, s.callAll calls = .ok (answers ++ [a], s') ∧
            told resource a = some response
        | none => Unreadable verb response ∧ s' = s) ∧
    (∀ r response s', s.act (.http r) = .ok (.response response, s') → response.status ≠ 500) ∧
    ∀ path response s', s.act (.connect path) = .ok (.handshakeFailed response, s') →
      response.status ≠ 500 := by
  refine ⟨fun r req resource verb hreq hpath hverb hb => ?_, fun _ _ _ => http_status,
    fun _ _ _ => connect_status⟩
  obtain ⟨⟨response, b⟩, ha, hsettles⟩ :=
    answer_settles s req hb (List.mem_of_find?_eq_some hverb)
  refine ⟨response, { s with broker := b }, http_of_answer hreq hpath hverb ha, ?_⟩
  unfold Settles at hsettles
  split at hsettles
  · exact hsettles
  · obtain ⟨hresponse, hbroker⟩ := hsettles
    refine ⟨hresponse, ?_⟩
    show { s with broker := b } = s
    rw [show b = s.broker from hbroker]

/-- A request that registers a queue. -/
def registering : RawRequest :=
  ⟨"POST", "/queues", some "application/json", Utf8.ofString "\x7b\"id\": \"jobs\"\x7d"⟩

theorem requests_refine_calls_once : ∃ b req, Broker.new {} = .ok b ∧
    request? registering false = some req ∧
    Resource.ofPath? req.path = some .queues ∧ Resource.queues.verb? req.method = some .post ∧
    ∃ response s', (Session.new .counting b ⟨0, 0⟩).act (.http registering) =
        .ok (.response (forMethod req.method response), s') ∧
      ∃ answers a, (Session.new .counting b ⟨0, 0⟩).callAll
          [.createQueue "jobs", .getQueue "jobs"] = .ok (answers ++ [a], s') ∧
        told .queues a = some response ∧ response.status ≠ 500 := by
  obtain ⟨b, hb⟩ : ∃ b, Broker.new {} = .ok b := ⟨_, rfl⟩
  have hreq : request? registering false = some ⟨"POST", "/queues", some "application/json",
      registering.body, false⟩ := by
    have hpath : Http.pathOf? registering.target = some "/queues" := by decide +kernel
    have hfine : (Http.isMethod registering.method &&
        registering.contentType.all Http.isHeaderText) = true := by decide +kernel
    rw [request?, hpath]
    simp only [hfine, if_true]
    rfl
  have hbody : body? QueueCreateRequest.decode ⟨"POST", "/queues", some "application/json",
      registering.body, false⟩ = some ⟨"jobs"⟩ := by decide +kernel
  obtain ⟨hcalls, hstatus, -⟩ := requests_refine_calls (Session.new .counting b ⟨0, 0⟩)
  obtain ⟨response, s', hact, hmatch⟩ :=
    hcalls registering _ .queues .post hreq (by decide +kernel) (by decide +kernel) rfl
  refine ⟨b, _, hb, hreq, by decide +kernel, by decide +kernel, response, s', hact, ?_⟩
  simp only [calls?, hbody, Option.map_some] at hmatch
  obtain ⟨answers, a, hall, ht⟩ := hmatch
  refine ⟨answers, a, hall, ht, ?_⟩
  have hforMethod := hstatus _ _ _ hact
  rwa [forMethod_status] at hforMethod

end Session

end EventBroker
