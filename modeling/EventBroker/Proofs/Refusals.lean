import EventBroker.Proofs.SessionRuns

/-! # Refusals

A call that is refused and a request that is answered with a failure leave the broker as they found
it. `Broker.Outcome.IsClean` says so of one operation and `Api.IsClean` of one response; what
composes operations into requests, and requests into steps of a session, keeps both.
-/
set_option autoImplicit false

namespace EventBroker

/-! ## Operations -/

namespace Broker

/-- If an operation on a broker is refused, the broker is as before. -/
def Outcome.IsClean {α : Type} (b : Broker) (outcome : Outcome α) : Prop :=
  ∀ e, outcome.1 = .error e → outcome.2 = b

/-- Every operation that can be refused leaves no trace when it is. -/
structure RefusesCleanly (b : Broker) : Prop where
  createQueue : ∀ id, (b.createQueue id).IsClean b
  getQueue : ∀ id, (b.getQueue id).IsClean b
  deleteQueue : ∀ id, (b.deleteQueue id).IsClean b
  submit : ∀ id event, (b.submit id event).IsClean b
  createChannel : ∀ id queues options m, (b.createChannel id queues options m).IsClean b
  getChannel : ∀ id m, (b.getChannel id m).IsClean b
  deleteChannel : ∀ id, (b.deleteChannel id).IsClean b
  dequeue : ∀ id m, (b.dequeue id m).IsClean b

theorem Outcome.isClean_ok {α : Type} (b b' : Broker) (a : α) :
    Outcome.IsClean b (.ok a, b') := fun _ h => nomatch h

theorem Outcome.isClean_error {α : Type} (b : Broker) (e : BrokerError) :
    Outcome.IsClean (α := α) b (.error e, b) := fun _ _ => rfl

theorem refusesCleanly (b : Broker) : b.RefusesCleanly where
  createQueue id := by
    unfold Broker.createQueue
    split
    · exact Outcome.isClean_error b _
    · split <;> exact Outcome.isClean_ok b _ _
  getQueue id := by
    unfold Broker.getQueue
    split
    · exact Outcome.isClean_ok b _ _
    · exact Outcome.isClean_error b _
  deleteQueue id := by
    unfold Broker.deleteQueue retire
    cases b.registry.find? id with
    | none => exact Outcome.isClean_error b _
    | some q => exact Outcome.isClean_ok b _ _
  submit id event := by
    unfold Broker.submit
    split
    · exact Outcome.isClean_error b _
    · exact Outcome.isClean_ok b _ _
  createChannel id queues options m := by
    unfold Broker.createChannel
    split
    · exact Outcome.isClean_error b _
    · split
      · exact Outcome.isClean_error b _
      · split
        · exact Outcome.isClean_error b _
        · exact Outcome.isClean_ok b _ _
  getChannel id m := by
    unfold Broker.getChannel
    split
    · exact Outcome.isClean_error b _
    · exact Outcome.isClean_ok b _ _
  deleteChannel id := by
    unfold Broker.deleteChannel
    split
    · exact Outcome.isClean_error b _
    · exact Outcome.isClean_ok b _ _
  dequeue id m := by
    unfold Broker.dequeue
    split
    · exact Outcome.isClean_error b _
    · exact Outcome.isClean_ok b _ _

end Broker

/-! ## One name that means nothing -/

/-- Among the names to resolve, one that means nothing is enough for the whole to be refused. -/
theorem Registry.resolve_of_unknown {r : Registry} {ids : List String} {id : String}
    (hid : id ∈ ids) (hn : r.find? id = none) : ∃ e, r.resolve ids = .error e := by
  unfold resolve
  induction ids with
  | nil => cases hid
  | cons first rest ih =>
    rw [List.mapM_cons]
    cases hf : r.find? first with
    | none => exact ⟨_, rfl⟩
    | some q =>
      have hrest : id ∈ rest := by
        rcases List.mem_cons.mp hid with rfl | h
        · rw [hn] at hf
          cases hf
        · exact h
      obtain ⟨e, he⟩ := ih hrest
      exact ⟨e, by rw [he]; rfl⟩

namespace Broker

theorem submit_of_unknown {b : Broker} (id : EventId) {event : NewEvent} {rule : ScheduleRule}
    (hr : rule ∈ event.rules) (hn : b.registry.find? rule.queue = none) :
    ∃ e, b.submit id event = (.error e, b) := by
  have ht : ∃ e, b.targets event = .error e := by
    unfold targets
    split
    · exact ⟨_, rfl⟩
    · split
      · exact ⟨_, rfl⟩
      · split
        · exact ⟨_, rfl⟩
        · exact Registry.resolve_of_unknown (List.mem_map_of_mem hr) hn
  obtain ⟨e, he⟩ := ht
  exact ⟨e, by rw [submit, he]⟩

theorem createChannel_of_unknown {b : Broker} (id : ChannelId) {queues : List String}
    (options : BufferOptions) (m : Moment) {name : String} (hq : name ∈ queues)
    (hn : b.registry.find? name = none) :
    ∃ e, b.createChannel id queues options m = (.error e, b) := by
  unfold createChannel
  split
  · exact ⟨_, rfl⟩
  · split
    · exact ⟨_, rfl⟩
    · obtain ⟨e, he⟩ := Registry.resolve_of_unknown hq hn
      exact ⟨e, by rw [he]⟩

end Broker

/-! ## Requests -/

namespace Api
open Http

/-- If a response tells of a failure, the broker is as before. -/
def IsClean (b : Broker) (outcome : Response × Broker) : Prop :=
  400 ≤ outcome.1.status → outcome.2 = b

theorem isClean_same (b : Broker) (r : Response) : IsClean b (r, b) := fun _ => rfl

/-- An operation that refuses cleanly is answered cleanly if its success is told as a success. -/
theorem isClean_respond {α : Type} {b : Broker} {refuse : BrokerError → Response}
    {accept : α → Response} {outcome : Broker.Outcome α} (h : outcome.IsClean b)
    (ha : ∀ a, (accept a).status = 200) : IsClean b (respond refuse accept outcome) := by
  obtain ⟨e | value, b'⟩ := outcome
  · intro _
    exact h e rfl
  · intro (hs : 400 ≤ (accept value).status)
    rw [ha] at hs
    omega

theorem isClean_withBody {α : Type} {b : Broker} {decode : Json.Decoder α} {req : Request}
    {run : α → Response × Broker} (h : ∀ a, IsClean b (run a)) :
    IsClean b (withBody b decode req run) := by
  unfold withBody
  split
  · exact isClean_same b _
  · exact h _

theorem isClean_withName {b : Broker} {parameter raw : String} {run : String → Response × Broker}
    (h : ∀ name, IsClean b (run name)) : IsClean b (withName parameter raw (·, b) run) := by
  unfold withName
  split
  · exact isClean_same b _
  · exact h _

theorem isClean_withChannel {b : Broker} {text : String} {run : ChannelId → Response × Broker}
    (h : ∀ id, IsClean b (run id)) : IsClean b (withChannel b text run) := by
  unfold withChannel
  split
  · exact isClean_same b _
  · exact h _

/-- Creating a queue tells about the queue afterwards, which cannot fail any more: the name has just
been registered. -/
theorem createQueue_isClean (b : Broker) (id : String) : (createQueue b id).IsClean b := by
  unfold createQueue
  cases hc : b.createQueue id with
  | mk result b' =>
    cases result with
    | error e =>
      intro _ _
      have hb := b.refusesCleanly.createQueue id e
      rw [hc] at hb
      exact hb rfl
    | ok isNew =>
      have hf : ∃ q, b'.registry.find? id = some q := by
        unfold Broker.createQueue at hc
        split at hc
        · cases hc
        · split at hc
          · next q hq =>
            cases hc
            exact ⟨q, hq⟩
          · next hq =>
            cases hc
            rw [Registry.find?] at hq
            exact ⟨Queue.new b.registry.queues.length id, by
              simp [Registry.find?, Registry.append, hq, Queue.new]⟩
      obtain ⟨q, hq⟩ := hf
      intro e he
      simp [Broker.getQueue, hq] at he

theorem isClean_answer {b : Broker} {fresh : FreshIds} {m : Moment} {req : Request}
    {resource : Resource} {verb : Verb} {outcome : Response × Broker}
    (h : answer b fresh m req resource verb = some outcome) : IsClean b outcome := by
  have hb := b.refusesCleanly
  unfold answer at h
  split at h <;> cases h
  -- the lists and the texts that change nothing
  · exact isClean_same b _
  · exact isClean_same b _
  · exact isClean_same b _
  · exact isClean_same b _
  -- registering, telling about and deleting a queue
  · exact isClean_withBody fun body =>
      isClean_respond (createQueue_isClean b body.id) fun _ => rfl
  · exact isClean_withName fun id => isClean_respond (hb.getQueue id) fun _ => rfl
  · exact isClean_withName fun id => isClean_respond (hb.deleteQueue id) fun _ => rfl
  -- submitting
  · exact isClean_withBody fun body => isClean_respond (hb.submit _ _) fun _ => rfl
  · exact isClean_same b _
  -- creating, telling about, deleting and emptying a channel
  · exact isClean_withBody fun body =>
      isClean_respond (hb.createChannel _ _ _ _) fun _ => rfl
  · exact isClean_withName fun text => isClean_withChannel fun id =>
      isClean_respond (hb.getChannel id m) fun _ => rfl
  · exact isClean_withName fun text => isClean_withChannel fun id =>
      isClean_respond (hb.deleteChannel id) fun _ => rfl
  · exact isClean_withName fun text => isClean_withChannel fun id =>
      isClean_respond (hb.dequeue id m) fun _ => rfl

theorem forMethod_status (method : String) (r : Response) :
    (forMethod method r).status = r.status := by
  unfold forMethod
  split <;> rfl

theorem serve_failure {b b' : Broker} {fresh : FreshIds} {m : Moment} {req : Request}
    {r : Response} (h : serve b fresh m req = .ok (.response r, b')) (hr : 400 ≤ r.status) :
    b' = b := by
  unfold serve at h
  split at h
  · cases h
    rfl
  · split at h
    · cases h
      rfl
    -- a stream
    · obtain ⟨⟨reply, b₁⟩, ho, he⟩ := Session.map_eq_ok_iff.mp h
      rcases openStream_cases m fresh ho with ⟨_, rfl, rfl, -⟩ | ⟨_, _, rfl, -⟩
      · cases he
        rfl
      · cases he
    -- everything else
    · split at h
      · next r₁ b₁ ha =>
        cases h
        rw [forMethod_status] at hr
        exact isClean_answer ha hr
      · cases h
        rfl

end Api

/-! ## Steps of a session -/

/-- Whether an answer tells of a failure: an error of the broker, a text that is no identifier, no
request or names nothing, or a response with the status of a failure. -/
def Answer.isFailure : Answer → Bool
  | .refused _ | .invalidId _ | .invalidRequest | .unknown => true
  | .response r | .handshakeFailed r => 400 ≤ r.status
  | _ => false

namespace Session

variable {s s' : Session} {a : Answer}

theorem onBroker_failure {α : Type} {accept : α → Answer} {outcome : Broker.Outcome α}
    (h : outcome.IsClean s.broker) (haccept : ∀ a, (accept a).isFailure = false)
    (hs : s.onBroker accept outcome = (a, s')) (ha : a.isFailure = true) : s' = s := by
  obtain ⟨e | value, b⟩ := outcome
  · have hb : b = s.broker := h e rfl
    cases hs
    rw [hb]
  · cases hs
    rw [haccept] at ha
    cases ha

theorem onChannel_failure {α : Type} {text : String} {accept : α → Answer}
    {run : ChannelId → Broker.Outcome α} (h : ∀ id, (run id).IsClean s.broker)
    (haccept : ∀ a, (accept a).isFailure = false) (hs : s.onChannel text accept run = (a, s'))
    (ha : a.isFailure = true) : s' = s := by
  unfold onChannel at hs
  split at hs
  · cases hs
    rfl
  · next id _ => exact onBroker_failure (h id) haccept hs ha

theorem http_failure {r : RawRequest} (hs : s.http r = .ok (a, s')) (ha : a.isFailure = true) :
    s' = s := by
  unfold http at hs
  split at hs
  · cases hs
    rfl
  · obtain ⟨⟨reply, b⟩, hv, he⟩ := bind_eq_ok_iff.mp hs
    cases reply with
    | response r =>
      cases he
      rw [Api.serve_failure hv (of_decide_eq_true ha)]
    | stream sub =>
      cases he
      cases ha

theorem connect_failure {path : String} (hs : s.connect path = .ok (a, s'))
    (ha : a.isFailure = true) : s' = s := by
  unfold connect at hs
  split at hs
  · cases hs
    rfl
  · obtain ⟨⟨reply, b⟩, hv, he⟩ := bind_eq_ok_iff.mp hs
    cases reply with
    | response r =>
      cases he
      rw [Api.serve_failure hv (of_decide_eq_true ha)]
    | stream sub =>
      cases he
      cases ha

theorem driverEnd_succeeds (s : Session) (limit : Nat) :
    (s.driverEnd limit).1.isFailure = false := by
  unfold driverEnd
  split <;> rfl

theorem send_failure {index : Nat} {message : Message} (hs : s.send index message = .ok (a, s'))
    (ha : a.isFailure = true) : s' = s := by
  unfold send at hs
  split at hs
  · cases hs
    rfl
  · split at hs
    · cases hs
      cases ha
    · split at hs
      · split at hs
        · cases hs
          cases ha
        · obtain ⟨_, -, he⟩ := map_eq_ok_iff.mp hs
          cases he
          cases ha
      · cases hs
        cases ha
      · cases hs
        cases ha

theorem closeSocket_failure {index : Nat} {abrupt : Bool}
    (hs : s.closeSocket index abrupt = .ok (a, s')) (ha : a.isFailure = true) : s' = s := by
  unfold closeSocket at hs
  split at hs
  · cases hs
    rfl
  · obtain ⟨_, -, he⟩ := bind_eq_ok_iff.mp hs
    cases he
    cases ha

/-- A step that fails has done nothing. Beside the calls and requests above only a step that names
a subscription or a socket can fail: if there is none. -/
theorem act_failure {x : Step} (hs : s.act x = .ok (a, s')) (ha : a.isFailure = true) :
    s' = s := by
  have hb := s.broker.refusesCleanly
  cases x with
  | createQueue id => exact onBroker_failure (hb.createQueue id) (fun _ => rfl) (Except.ok.inj hs) ha
  | getQueue id => exact onBroker_failure (hb.getQueue id) (fun _ => rfl) (Except.ok.inj hs) ha
  | deleteQueue id => exact onBroker_failure (hb.deleteQueue id) (fun _ => rfl) (Except.ok.inj hs) ha
  | submit event => exact onBroker_failure (hb.submit _ event) (fun _ => rfl) (Except.ok.inj hs) ha
  | createChannel queues options =>
    exact onBroker_failure (hb.createChannel _ queues options _) (fun _ => rfl) (Except.ok.inj hs) ha
  | getChannel text =>
    exact onChannel_failure (fun id => hb.getChannel id _) (fun _ => rfl) (Except.ok.inj hs) ha
  | deleteChannel text =>
    exact onChannel_failure hb.deleteChannel (fun _ => rfl) (Except.ok.inj hs) ha
  | dequeue text =>
    exact onChannel_failure (fun id => hb.dequeue id _) (fun _ => rfl) (Except.ok.inj hs) ha
  | http request => exact http_failure hs ha
  | connect path => exact connect_failure hs ha
  | advance ms =>
    obtain ⟨_, -, he⟩ := map_eq_ok_iff.mp hs
    cases he
    cases ha
  | subscribe category =>
    obtain ⟨_, -, he⟩ := map_eq_ok_iff.mp hs
    cases he
    cases ha
  | receive subscriber max | receiveOne subscriber =>
    have hs := Except.ok.inj hs
    split at hs <;> cases hs
    · rfl
    · cases ha
  | unsubscribe subscriber =>
    simp only [act] at hs
    split at hs
    · cases hs
      rfl
    · obtain ⟨_, -, he⟩ := map_eq_ok_iff.mp hs
      cases he
      cases ha
  | dropBroker limit =>
    have he := driverEnd_succeeds
      { s with broker := (s.broker.channels.foldl Broker.closeChannel s.broker).drop, reapers := [] }
      limit
    rw [show driverEnd _ limit = (a, s') from Except.ok.inj hs, ha] at he
    cases he
  | readSocket socket =>
    have hs := Except.ok.inj hs
    unfold readSocket at hs
    split at hs <;> cases hs
    · rfl
    · cases ha
  | send index message => exact send_failure hs ha
  | closeSocket index abrupt => exact closeSocket_failure hs ha
  | _ =>
    cases hs
    cases ha

/-! ## Failures leave no trace -/

/-- Whatever fails leaves the broker as it was, as a whole: an operation that is refused, a request
that is answered with a failure, and a step of a session, which leaves the whole session as it was.
One name that means nothing, among any others, makes submitting an event and creating a channel
fail. -/
theorem failures_leave_no_trace (s : Session) :
    s.broker.RefusesCleanly ∧
    (∀ fresh m req r b, Api.serve s.broker fresh m req = .ok (.response r, b) → 400 ≤ r.status →
      b = s.broker) ∧
    (∀ x a s', s.act x = .ok (a, s') → a.isFailure = true → s' = s) ∧
    (∀ id event, ∀ rule ∈ event.rules, s.broker.registry.find? rule.queue = none →
      ∃ e, s.broker.submit id event = (.error e, s.broker)) ∧
    ∀ id queues options m, ∀ name ∈ queues, s.broker.registry.find? name = none →
      ∃ e, s.broker.createChannel id queues options m = (.error e, s.broker) :=
  ⟨s.broker.refusesCleanly, fun _ _ _ _ _ h hr => Api.serve_failure h hr,
    fun _ _ _ h ha => act_failure h ha, fun id _ _ hr hn => Broker.submit_of_unknown id hr hn,
    fun id _ options m _ hq hn => Broker.createChannel_of_unknown id options m hq hn⟩

/-- Whether a request is answered with a status. -/
def hasStatus (status : Nat) : Except Crash (Api.Reply × Broker) → Bool
  | .ok (.response r, _) => r.status == status
  | _ => false

theorem of_hasStatus {status : Nat} {result : Except Crash (Api.Reply × Broker)}
    (h : hasStatus status result = true) :
    ∃ r b, result = .ok (.response r, b) ∧ r.status = status := by
  obtain e | ⟨r | stream, b⟩ := result
  · cases h
  · exact ⟨r, b, rfl, beq_iff_eq.mp h⟩
  · cases h

/-- With one queue registered, what asks for another one fails in each of the ways. -/
theorem failures_leave_no_trace_once :
    ∃ b, Broker.new {} = .ok b ∧ ∃ s, s = Session.new .counting (b.createQueue "jobs").2 ⟨0, 0⟩ ∧
      (s.broker.deleteQueue "gone").2 = s.broker ∧
      (∃ r, Api.serve s.broker s.fresh s.moment ⟨"DELETE", "/queues/gone", none, [], false⟩ =
        .ok (.response r, s.broker) ∧ r.status = 404) ∧
      s.act (.getQueue "gone") = .ok (.refused (.queueNotFound "gone"), s) ∧
      (∃ e, s.broker.submit s.fresh.event ⟨[], none, [⟨"jobs", 1, none⟩, ⟨"gone", 1, none⟩]⟩ =
        (.error e, s.broker)) ∧
      ∃ e, s.broker.createChannel s.fresh.channel ["jobs", "gone", "jobs"] ⟨0, 1⟩ s.moment =
        (.error e, s.broker) := by
  obtain ⟨b, hb⟩ : ∃ b, Broker.new {} = .ok b := ⟨_, rfl⟩
  have hn : (b.createQueue "jobs").2.registry.find? "gone" = none := by
    cases hb
    decide
  obtain ⟨hbroker, hserve, hact, hsubmit, hcreate⟩ :=
    failures_leave_no_trace (Session.new .counting (b.createQueue "jobs").2 ⟨0, 0⟩)
  refine ⟨b, hb, _, rfl, ?_, ?_, ?_, ?_, ?_⟩
  · exact hbroker.deleteQueue "gone" (.queueNotFound "gone")
      (by simp [Session.new, Broker.deleteQueue, Broker.retire, hn])
  · have hs : hasStatus 404 (Api.serve (Session.new .counting (b.createQueue "jobs").2 ⟨0, 0⟩).broker
        (Session.new .counting (b.createQueue "jobs").2 ⟨0, 0⟩).fresh ⟨0, 0⟩
        ⟨"DELETE", "/queues/gone", none, [], false⟩) = true := by
      cases hb
      decide +kernel
    obtain ⟨r, b', he, hr⟩ := of_hasStatus hs
    have hb' := hserve _ _ _ r b' he (by omega)
    exact ⟨r, hb' ▸ he, hr⟩
  · obtain ⟨s', he⟩ : ∃ s', act (Session.new .counting (b.createQueue "jobs").2 ⟨0, 0⟩)
        (.getQueue "gone") = .ok (.refused (.queueNotFound "gone"), s') := by
      simp [act, onBroker, Session.new, Broker.getQueue, hn]
    rw [he, hact _ _ s' he rfl]
  · exact hsubmit _ _ ⟨"gone", 1, none⟩ (by decide) hn
  · exact hcreate _ _ _ _ "gone" (by decide) hn

end Session

end EventBroker
