import EventBroker.Api.Service
import EventBroker.Proofs.Deeds

/-! # Requests as deeds

`Api.deeds` lists what a request does to the broker; `Api.serve_replays` says that `Api.serve` does
just that, whatever it answers.
-/
set_option autoImplicit false

namespace EventBroker

theorem Broker.Distinct.replay_closeDeeds {b : Broker} (h : b.Distinct) (id : ChannelId)
    (m : Moment) : b.replay (b.closeDeeds id m) = (b.deleteChannel id).2 := by
  unfold closeDeeds deleteChannel
  cases hf : b.channel? id with
  | none => rfl
  | some c =>
    have hc : b.at? c.serial = some c := h.at?_of_mem (List.mem_of_find?_eq_some hf)
    simp [perform, hc]

namespace Api

/-- The identifier that a segment of a path stands for. -/
def channelNamed? (raw : String) : Option ChannelId :=
  (Percent.decodeText? raw).bind ChannelId.parse?

/-- The body of a request, if it can be read. -/
def body? {α : Type} (decode : Json.Decoder α) (req : Http.Request) : Option α :=
  (readBody decode req).toOption

/-- What a request does to a resource. -/
def resourceDeeds (b : Broker) (fresh : FreshIds) (m : Moment) (req : Http.Request) :
    Resource → Verb → List Deed
  | .queues, .post =>
    (body? QueueCreateRequest.decode req).toList.flatMap fun body => [⟨m, .createQueue body.id⟩]
  | .queue raw, .delete =>
    (Percent.decodeText? raw).toList.flatMap fun id => b.deleteQueueDeeds id m
  | .events, .post =>
    (body? EventCreateRequest.decode req).toList.flatMap fun body =>
      b.submitDeeds fresh.event body.toEvent m
  | .channels, .post =>
    (body? ChannelCreateRequest.decode req).toList.flatMap fun body =>
      [⟨m, .createChannel fresh.channel body.queues body.bufferOptions⟩]
  | .channel raw, .get => (channelNamed? raw).toList.flatMap fun id => [⟨m, .getChannel id⟩]
  | .channel raw, .delete => (channelNamed? raw).toList.flatMap fun id => b.closeDeeds id m
  | .channelEvents raw, .get => (channelNamed? raw).toList.flatMap fun id => [⟨m, .dequeue id⟩]
  | .stream raw, .get =>
    if req.method = "GET" ∧ req.upgrade = true then
      (Percent.decodeText? raw).toList.flatMap fun category => [⟨m, .subscribe category⟩]
    else []
  | _, _ => []

/-- What a request does. -/
def deeds (b : Broker) (fresh : FreshIds) (m : Moment) (req : Http.Request) : List Deed :=
  match Resource.ofPath? req.path with
  | none => []
  | some resource =>
    match resource.verb? req.method with
    | none => []
    | some verb => resourceDeeds b fresh m req resource verb

theorem respond_broker {α : Type} (refuse : BrokerError → Http.Response)
    (accept : α → Http.Response) (outcome : Broker.Outcome α) :
    (respond refuse accept outcome).2 = outcome.2 := by
  unfold respond
  split <;> rfl

theorem createQueue_broker (b : Broker) (id : String) :
    (createQueue b id).2 = (b.createQueue id).2 := by
  unfold createQueue
  split
  · next h => rw [h]
  · next h =>
    rw [h, Broker.getQueue]
    split <;> rfl

/-- What a body asks for is done, and nothing without a body. -/
theorem withBody_replays {α : Type} {b : Broker} {decode : Json.Decoder α} {req : Http.Request}
    {run : α → Http.Response × Broker} {deeds : α → List Deed}
    (h : ∀ a, (run a).2 = b.replay (deeds a)) :
    (withBody b decode req run).2 = b.replay ((body? decode req).toList.flatMap deeds) := by
  unfold withBody body?
  cases readBody decode req with
  | error message => rfl
  | ok a => simpa [Except.toOption] using h a

/-- What is asked for under a name is done, and nothing if the path names nothing. -/
theorem withName_replays {b : Broker} {parameter raw : String}
    {run : String → Http.Response × Broker} {deeds : String → List Deed}
    (h : ∀ name, (run name).2 = b.replay (deeds name)) :
    (withName parameter raw (·, b) run).2 =
      b.replay ((Percent.decodeText? raw).toList.flatMap deeds) := by
  unfold withName
  cases Percent.decodeText? raw with
  | none => rfl
  | some name => simpa using h name

/-- What is asked for on a channel is done, and nothing if the path names no channel. -/
theorem withChannel_replays {b : Broker} {parameter raw : String}
    {run : ChannelId → Http.Response × Broker} {deeds : ChannelId → List Deed}
    (h : ∀ id, (run id).2 = b.replay (deeds id)) :
    (withName parameter raw (·, b) fun text => withChannel b text run).2 =
      b.replay ((channelNamed? raw).toList.flatMap deeds) := by
  unfold withName channelNamed?
  cases Percent.decodeText? raw with
  | none => rfl
  | some text =>
    simp only [withChannel, Option.bind_some]
    cases ChannelId.parse? text with
    | none => rfl
    | some id => simpa using h id

theorem answer_replays {b b' : Broker} (h : b.Distinct) {fresh : FreshIds} {m : Moment}
    {req : Http.Request} {resource : Resource} {verb : Verb} {r : Http.Response}
    (ha : answer b fresh m req resource verb = some (r, b')) :
    b' = b.replay (resourceDeeds b fresh m req resource verb) := by
  have hr : ∀ {outcome : Http.Response × Broker}, some outcome = some (r, b') → b' = outcome.2 := by
    rintro outcome ⟨⟩
    rfl
  unfold answer at ha
  split at ha
  -- the lists and the texts that change nothing
  · exact hr ha
  · exact hr ha
  · exact hr ha
  · exact hr ha
  -- registering a queue
  · refine (hr ha).trans (withBody_replays fun body => ?_)
    rw [respond_broker, createQueue_broker]
    rfl
  -- telling about a queue
  · refine (hr ha).trans ?_
    unfold withName
    split
    · rfl
    · rw [respond_broker, Broker.getQueue]
      split <;> rfl
  -- deleting a queue
  · refine (hr ha).trans (withName_replays fun id => ?_)
    rw [respond_broker, Broker.replay_deleteQueueDeeds]
  -- submitting
  · refine (hr ha).trans (withBody_replays fun body => ?_)
    rw [respond_broker, Broker.replay_submitDeeds]
  · exact hr ha
  -- creating a channel
  · refine (hr ha).trans (withBody_replays fun body => ?_)
    rw [respond_broker]
    rfl
  -- telling about a channel
  · refine (hr ha).trans (withChannel_replays fun id => ?_)
    rw [respond_broker]
    rfl
  -- deleting a channel
  · refine (hr ha).trans (withChannel_replays fun id => ?_)
    rw [respond_broker, h.replay_closeDeeds]
  -- taking the events of a channel
  · refine (hr ha).trans (withChannel_replays fun id => ?_)
    rw [respond_broker]
    rfl
  · cases ha

/-- What is not answered does nothing, unless it opens a stream. -/
theorem resourceDeeds_of_unanswered {b : Broker} {fresh : FreshIds} {m : Moment}
    {req : Http.Request} {resource : Resource} {verb : Verb}
    (ha : answer b fresh m req resource verb = none)
    (hn : ∀ raw, resource = .stream raw → verb = .get → False) :
    resourceDeeds b fresh m req resource verb = [] := by
  cases resource <;> cases verb <;> first
    | rfl
    | exact (hn _ rfl rfl).elim
    | cases ha

/-- Either a stream is opened and someone subscribed for it, or nothing happens. -/
theorem openStream_cases {b b' : Broker} (m : Moment) (fresh : FreshIds) {req : Http.Request}
    {raw : String} {reply : Reply} (ho : openStream b req raw = .ok (reply, b')) :
    (∃ r, reply = .response r ∧ b' = b ∧ resourceDeeds b fresh m req (.stream raw) .get = []) ∨
      ∃ category sub, reply = .stream sub ∧ b.subscribe category = .ok (sub, b') ∧
        resourceDeeds b fresh m req (.stream raw) .get = [⟨m, .subscribe category⟩] := by
  unfold openStream at ho
  simp only [resourceDeeds]
  by_cases hm : req.method = "GET"
  · by_cases hu : req.upgrade = true
    · rw [if_pos ⟨hm, hu⟩]
      rw [if_neg (by simp [hm]), if_neg (by simp [hu])] at ho
      unfold withName at ho
      cases hd : Percent.decodeText? raw with
      | none =>
        rw [hd] at ho
        cases ho
        exact .inl ⟨_, rfl, rfl, rfl⟩
      | some category =>
        rw [hd] at ho
        cases hs : b.subscribe category with
        | error e => simp [hs, Except.map] at ho
        | ok p =>
          simp only [hs, Except.map, Except.ok.injEq, Prod.mk.injEq] at ho
          obtain ⟨rfl, rfl⟩ := ho
          exact .inr ⟨category, p.1, rfl, hs, rfl⟩
    · rw [if_neg fun h => hu h.2]
      rw [if_neg (by simp [hm]), if_pos (by simp [hu])] at ho
      cases ho
      exact .inl ⟨_, rfl, rfl, rfl⟩
  · rw [if_neg fun h => hm h.1]
    rw [if_pos hm] at ho
    cases ho
    exact .inl ⟨_, rfl, rfl, rfl⟩

theorem openStream_replays {b b' : Broker} {m : Moment} {fresh : FreshIds} {req : Http.Request}
    {raw : String} {reply : Reply} (ho : openStream b req raw = .ok (reply, b')) :
    b' = b.replay (resourceDeeds b fresh m req (.stream raw) .get) := by
  rcases openStream_cases m fresh ho with ⟨r, -, rfl, hd⟩ | ⟨category, sub, -, hs, hd⟩
  · rw [hd]
    rfl
  · rw [hd]
    simp [Broker.perform, hs]

theorem serve_replays {b b' : Broker} (h : b.Distinct) {fresh : FreshIds} {m : Moment}
    {req : Http.Request} {reply : Reply} (hs : serve b fresh m req = .ok (reply, b')) :
    b' = b.replay (deeds b fresh m req) := by
  unfold serve at hs
  unfold deeds
  cases hp : Resource.ofPath? req.path with
  | none =>
    rw [hp] at hs
    cases hs
    rfl
  | some resource =>
    rw [hp] at hs
    simp only at hs ⊢
    split at hs
    · next hv =>
      cases hs
      rw [hv]
      rfl
    · next raw hv =>
      rw [hv]
      cases ho : openStream b req raw with
      | error e => simp [ho, Except.map] at hs
      | ok p =>
        simp only [ho, Except.map, Except.ok.injEq, Prod.mk.injEq] at hs
        rw [← hs.2]
        exact openStream_replays ho
    · next verb hn hv =>
      rw [hv]
      split at hs
      · next r b₁ ha =>
        cases hs
        exact answer_replays h ha
      · next ha =>
        cases hs
        simp only [resourceDeeds_of_unanswered ha hn]
        rfl

/-! ## What becomes of a request -/

section
variable {b b' : Broker} {fresh : FreshIds} {m : Moment} {req : Http.Request} {resource : Resource}
  {verb : Verb}

theorem serve_of_noPath (hpath : Resource.ofPath? req.path = none) :
    serve b fresh m req = .ok (.response .notFound, b) := by
  rw [serve, hpath]

theorem serve_of_noVerb (hpath : Resource.ofPath? req.path = some resource)
    (hverb : resource.verb? req.method = none) :
    serve b fresh m req = .ok (.response (notAllowed resource), b) := by
  rw [serve, hpath]
  simp only [hverb]

theorem serve_of_stream {raw : String} (hpath : Resource.ofPath? req.path = some (.stream raw))
    (hverb : (Resource.stream raw).verb? req.method = some .get) :
    serve b fresh m req =
      (openStream b req raw).map fun (reply, b) => (reply.forMethod req.method, b) := by
  rw [serve, hpath]
  simp only [hverb]

theorem serve_of_answer {response : Http.Response}
    (hpath : Resource.ofPath? req.path = some resource)
    (hverb : resource.verb? req.method = some verb)
    (ha : answer b fresh m req resource verb = some (response, b')) :
    serve b fresh m req = .ok (.response (forMethod req.method response), b') := by
  unfold serve
  rw [hpath]
  simp only [hverb]
  split
  · next h => cases h
  · next h _ =>
    cases h
    cases ha
  · next h _ =>
    cases h
    rw [ha]

theorem serve_of_unanswered (hpath : Resource.ofPath? req.path = some resource)
    (hverb : resource.verb? req.method = some verb) (hs : ∀ raw, resource ≠ .stream raw)
    (ha : answer b fresh m req resource verb = none) :
    serve b fresh m req = .ok (.response (notAllowed resource), b) := by
  unfold serve
  rw [hpath]
  simp only [hverb]
  split
  · next h => cases h
  · next h _ =>
    cases h
    exact absurd rfl (hs _)
  · next h _ =>
    cases h
    rw [ha]

end

end Api

end EventBroker
