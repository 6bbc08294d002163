import EventBroker.Api.Service
import EventBroker.Client.Call
import EventBroker.Proofs.Records

/-! # Client and broker on the wire

Both sides write and read the same records, each in its own way: the client leaves out what is
absent where the broker writes `null` or has a default, and the client has defaults where the broker
writes everything. What a client sends means to the broker what it meant to the client, and what the
broker answers means to the client what it meant to the broker (`Client.wire_agreement`). Counts and
times are 64-bit words on both sides, the number of repetitions is a 32-bit word.

What a frame of a stream tells of an event is `Api.StreamEvent.Tells`.
-/
set_option autoImplicit false

namespace EventBroker
open Json

/-! ## Ranges -/

def BufferOptions.InRange (o : BufferOptions) : Prop := o.time ≤ word64Max ∧ o.size ≤ word64Max

namespace Api

def RecurringOptions.InRange (o : RecurringOptions) : Prop :=
  o.times ≤ word32Max ∧ o.delay ≤ word64Max

def QueueResponse.InRange (r : QueueResponse) : Prop :=
  r.pendingEvents ≤ word64Max ∧ r.deliveredEvents ≤ word64Max

def ChannelResponse.InRange (r : ChannelResponse) : Prop :=
  r.bufferOptions.InRange ∧ r.bufferedEvents ≤ word64Max

end Api

def Client.ScheduleRule.InRange (r : ScheduleRule) : Prop :=
  r.scheduleFor ≤ word64Max ∧ ∀ o ∈ r.recurringOptions, o.InRange

def Client.NewEvent.InRange (e : NewEvent) : Prop := ∀ r ∈ e.scheduleRules, r.InRange

/-! ## What the broker reads -/

namespace Api

theorem means_queueCreate (id : String) :
    Means QueueCreateRequest.decode (.object [("id", .string id)]) ⟨id⟩ :=
  FieldList.Writes.means (.present (means_text id) .nil rfl) _ _

theorem means_recurring {o : RecurringOptions} (h : o.InRange) :
    Means RecurringOptions.decode o.toJson o := by
  have hdelay := means_word64 h.2
  have htimes := means_word32 h.1
  exact FieldList.Writes.means (.present htimes (.present hdelay .nil rfl) rfl) _ _

theorem means_options (record : String) {o : BufferOptions} (h : o.InRange) :
    Means (decodeBufferOptions record) (bufferOptionsJson o) o := by
  have htime := means_word64 h.1
  have hsize := means_count h.2
  exact FieldList.Writes.means (.present htime (.present hsize .nil rfl) rfl) _ _

theorem means_channelCreate {options : BufferOptions} (h : options.InRange)
    (queues : List String) : Means ChannelCreateRequest.decode
      (.object [("buffer_options", bufferOptionsJson options),
        ("queues", .array (queues.map .string))]) ⟨options, queues⟩ := by
  have hoptions := means_options "BufferOptionsBody" h
  have hqueues := means_texts queues
  exact FieldList.Writes.means (.present hoptions (.present hqueues .nil rfl) rfl) _ _

/-- A rule as the broker sees it. -/
def ruleOf (r : Client.ScheduleRule) : ScheduleRuleRequest :=
  ⟨r.queue, r.scheduleFor, r.recurringOptions⟩

/-- A client leaves out the recurrence of a rule that has none. -/
theorem means_rule {r : Client.ScheduleRule} (h : r.InRange) :
    Means ScheduleRuleRequest.decode r.toJson (ruleOf r) := by
  obtain ⟨queue, scheduleFor, recurring⟩ := r
  have hqueue := means_text queue
  have htime := means_word64 h.1
  cases recurring with
  | none =>
    exact FieldList.Writes.means
      (.present hqueue (.present htime (.absent rfl .nil rfl) rfl) rfl) _ _
  | some o =>
    have hrecurring : Means (Decode.optional RecurringOptions.decode) o.toJson (some o) :=
      (means_recurring (h.2 o rfl)).optional fun he => Json.noConfusion he
    exact FieldList.Writes.means
      (.present hqueue (.present htime (.present hrecurring .nil rfl) rfl) rfl) _ _

/-- A client leaves out the category of an event that has none. -/
theorem means_event {e : Client.NewEvent} (h : e.InRange) :
    Means EventCreateRequest.decode e.toJson
      ⟨e.data, e.category, e.scheduleRules.map ruleOf⟩ := by
  obtain ⟨data, category, rules⟩ := e
  have hdata := means_text data
  have hrules : Means (Decode.list ScheduleRuleRequest.decode)
      (.array (rules.map Client.ScheduleRule.toJson)) (rules.map ruleOf) :=
    means_list fun r hr => means_rule (h r hr)
  cases category with
  | none =>
    exact FieldList.Writes.means
      (.present hdata (.absent rfl (.present hrules .nil rfl) rfl) rfl) _ _
  | some category =>
    have hcategory : Means (Decode.optional Decode.text) (.string category) (some category) :=
      (means_text category).optional fun he => Json.noConfusion he
    exact FieldList.Writes.means
      (.present hdata (.present hcategory (.present hrules .nil rfl) rfl) rfl) _ _

end Api

/-! ## What a stream tells -/

namespace Api

/-- A frame tells of an event: its text is an object with six members, and as long as the times are
words, nothing else than the frame is read from that text. -/
structure StreamEvent.Tells (f : StreamEvent) (e : DeliveredEvent) : Prop where
  members : f.toJson = .object [("event_id", .string e.eventId.toText),
    ("queue", .string e.queue), ("category", .string e.category),
    ("data", .string (Utf8.toStringLossy e.data)), ("schedule_for", .nat e.fireAt),
    ("fired_at", .nat e.firedAt)]
  read : e.fireAt ≤ word64Max → e.firedAt ≤ word64Max →
    decodeWhole StreamEvent.decode f.toJson.bytes = .ok f

end Api

/-! ## What the client reads -/

namespace Client
open Api

theorem means_only {α : Type} {decode : Decoder α} {v : Json} {a : α} (h : Means decode v a)
    (record name : String) :
    Means (decodeOnly record name decode) (.object [(name, v)]) a :=
  have hfield : Means (Field.required name decode).decode v a := h
  FieldList.Writes.means (.present hfield .nil rfl) _ _

/-- A queue as a client sees it. -/
def queueOf (r : QueueResponse) : Queue := ⟨r.id, r.pendingEvents, r.deliveredEvents⟩

theorem means_queue {r : QueueResponse} (h : r.InRange) :
    Means Queue.decode r.toJson (queueOf r) := by
  have hid := means_text r.id
  have hpending := means_word64 h.1
  have hdelivered := means_word64 h.2
  exact FieldList.Writes.means
    (.present hid (.present hpending (.present hdelivered .nil rfl) rfl) rfl) _ _

theorem means_channel {r : ChannelResponse} (h : r.InRange) : Means Channel.decode r.toJson
    ⟨r.channelId, r.queues, r.bufferOptions, r.bufferedEvents, r.ready⟩ := by
  have hid := means_text r.channelId
  have hqueues := means_texts r.queues
  have hoptions := means_options "BufferOptions" h.1
  have hbuffered := means_count h.2
  have hready := means_flag r.ready
  exact FieldList.Writes.means (.present hid (.present hqueues (.present hoptions
    (.present hbuffered (.present hready .nil rfl) rfl) rfl) rfl) rfl) _ _

theorem means_channelEvent (e : Api.ChannelEvent) :
    Means ChannelEvent.decode e.toJson ⟨e.data⟩ :=
  FieldList.Writes.means (.present (means_text e.data) .nil rfl) _ _

/-! ## Sent and received -/

/-- The body of a client's request is read as a value: as it is, and by a broker that gets it under
the content type of the request, unless it is longer than bodies may be. -/
def Request.IsReadAs {α : Type} (req : Request) (decode : Decoder α) (a : α) : Prop :=
  ∃ v, req.body = some v ∧ decodeFront decode v.bytes = .ok a ∧
    ∀ sent : Http.Request, sent.contentType = req.contentType → sent.body = v.bytes →
      sent.body.length ≤ maxBodyBytes → readBody decode sent = .ok a

/-- A reply with a value as its body, and a status of success, is the result of a call. -/
def Call.Accepts {α : Type} (call : Call α) (v : Json) (a : α) : Prop :=
  ∀ status, Http.isSuccess status = true → call.result ⟨status, v.bytes⟩ = .ok a

theorem isReadAs {α β : Type} (c : Client) {call : Call β} {decode : Decoder α} {v : Json} {a : α}
    (hbody : call.body = some v) (h : Means decode v a) :
    (c.request call).IsReadAs decode a := by
  refine ⟨v, hbody, h.front, fun sent htype hsent hlength => ?_⟩
  have hjson : sent.contentType = some "application/json" := by
    rw [htype]
    show (c.request call).body.map _ = _
    rw [show (c.request call).body = some v from hbody]
    rfl
  have hjson : saysJson sent = true := by
    rw [saysJson, hjson]
    decide +kernel
  unfold readBody
  rw [hjson, if_neg (by decide), if_neg (by omega), hsent, h.front]
  rfl

theorem accepts {α : Type} {call : Call α} {decode : Decoder α} {v : Json} {a : α}
    (hread : call.read = Call.json decode) (h : Means decode v a) : call.Accepts v a := by
  intro status hstatus
  rw [Call.result, if_pos hstatus, hread, Call.json, h.whole]
  rfl

/-- A call whose reply is not looked at succeeds whatever the reply says. -/
theorem result_ignored {call : Call Unit} (hread : call.read = Call.ignore) {status : Nat}
    (hstatus : Http.isSuccess status = true) (body : List UInt8) :
    call.result ⟨status, body⟩ = .ok () := by
  rw [Call.result, if_pos hstatus, hread]
  rfl

/-- What a client sends is read by the broker as what the client meant: names, payloads, categories
and queues as they are, rule after rule with queue, time and recurrence, and what is absent as
absent. Every reply of the broker is read by the client as what the broker said, so that no call
that succeeded is taken for one whose reply cannot be read. -/
theorem wire_agreement (c : Client) :
    (∀ id, (c.request (.createQueue id)).IsReadAs QueueCreateRequest.decode ⟨id⟩) ∧
    (∀ e, e.InRange → (c.request (.scheduleEvent e)).IsReadAs EventCreateRequest.decode
      ⟨e.data, e.category,
        e.scheduleRules.map fun r => ⟨r.queue, r.scheduleFor, r.recurringOptions⟩⟩) ∧
    (∀ queues options, options.InRange →
      (c.request (.createChannel queues options)).IsReadAs ChannelCreateRequest.decode
        ⟨options, queues⟩) ∧
    (∀ id (r : QueueResponse), r.InRange → (Call.createQueue id).Accepts r.toJson () ∧
      (Call.getQueue id).Accepts r.toJson ⟨r.id, r.pendingEvents, r.deliveredEvents⟩) ∧
    (∀ r : QueueListResponse, (∀ q ∈ r.queues, q.InRange) → Call.listQueues.Accepts r.toJson
      (r.queues.map fun q => ⟨q.id, q.pendingEvents, q.deliveredEvents⟩)) ∧
    (∀ e (r : EventCreatedResponse), (Call.scheduleEvent e).Accepts r.toJson r.eventId) ∧
    (∀ queues options (r : ChannelCreatedResponse),
      (Call.createChannel queues options).Accepts r.toJson r.channelId) ∧
    (∀ r : ChannelListResponse, Call.listChannels.Accepts r.toJson r.channels) ∧
    (∀ id (r : ChannelResponse), r.InRange → (Call.getChannel id).Accepts r.toJson
      ⟨r.channelId, r.queues, r.bufferOptions, r.bufferedEvents, r.ready⟩) ∧
    (∀ id (r : ChannelEventsResponse),
      (Call.dequeue id).Accepts r.toJson (r.events.map fun e => ⟨e.data⟩)) ∧
    (∀ r : ConnectionsInfo, r.clientsConnected ≤ word64Max →
      Call.connections.Accepts r.toJson r.clientsConnected) ∧
    ∀ id status body, Http.isSuccess status = true →
      (Call.deleteQueue id).result ⟨status, body⟩ = .ok () ∧
        (Call.deleteChannel id).result ⟨status, body⟩ = .ok () := by
  refine ⟨?_, ?_, ?_, ?_, ?_, ?_, ?_, ?_, ?_, ?_, ?_, ?_⟩
  · intro id
    exact isReadAs c rfl (means_queueCreate id)
  · intro e he
    exact isReadAs c rfl (means_event he)
  · intro queues options ho
    exact isReadAs c rfl (means_channelCreate ho queues)
  · intro id r hr
    exact ⟨fun _ hs => result_ignored rfl hs _, accepts rfl (means_queue hr)⟩
  · intro r hr
    have hqueues := means_list fun q hq => means_queue (hr q hq)
    exact accepts rfl (means_only hqueues "QueueList" "queues")
  · intro e r
    exact accepts rfl (means_only (means_text r.eventId) "EventCreated" "event_id")
  · intro queues options r
    exact accepts rfl (means_only (means_text r.channelId) "ChannelCreated" "channel_id")
  · intro r
    exact accepts rfl (means_only (means_texts r.channels) "ChannelList" "channels")
  · intro id r hr
    exact accepts rfl (means_channel hr)
  · intro id r
    have hread : ∀ e ∈ r.events, Means ChannelEvent.decode e.toJson ⟨e.data⟩ := fun e _ =>
      means_channelEvent e
    have hevents := means_list hread
    exact accepts rfl (means_only hevents "ChannelEvents" "events")
  · intro r hr
    exact accepts rfl (means_only (means_count hr) "Connections" "clients_connected")
  · intro id status body hs
    exact ⟨result_ignored rfl hs body, result_ignored rfl hs body⟩

/-- An event without a category, with the largest words, and with one rule that has a recurrence and
one that has none. -/
def largest : NewEvent :=
  ⟨"\x00", none, [⟨"jobs", word64Max, some ⟨word32Max, word64Max⟩⟩, ⟨"jobs", 0, none⟩]⟩

theorem wire_agreement_once : ∃ c, Client.new "http://[::1]:2626/" = .ok c ∧ largest.InRange ∧
    (c.request (.scheduleEvent largest)).IsReadAs EventCreateRequest.decode
      ⟨"\x00", none, [⟨"jobs", word64Max, some ⟨word32Max, word64Max⟩⟩, ⟨"jobs", 0, none⟩]⟩ ∧
    BufferOptions.InRange ⟨word64Max, 1⟩ ∧
    (c.request (.createChannel ["jobs", "jobs"] ⟨word64Max, 1⟩)).IsReadAs
      ChannelCreateRequest.decode ⟨⟨word64Max, 1⟩, ["jobs", "jobs"]⟩ ∧
    QueueResponse.InRange ⟨"jobs", word64Max, 0⟩ ∧ Http.isSuccess 200 = true ∧
    (Call.getQueue "jobs").result ⟨200, (QueueResponse.toJson ⟨"jobs", word64Max, 0⟩).bytes⟩ =
      .ok ⟨"jobs", word64Max, 0⟩ ∧
    Call.connections.result ⟨200, (ConnectionsInfo.toJson ⟨word64Max⟩).bytes⟩ = .ok word64Max := by
  obtain ⟨c, hc⟩ : ∃ c, Client.new "http://[::1]:2626/" = .ok c := by
    have hnew : (Client.new "http://[::1]:2626/").toOption.isSome = true := by decide +kernel
    cases h : Client.new "http://[::1]:2626/" with
    | error e =>
      rw [h] at hnew
      cases hnew
    | ok c => exact ⟨c, rfl⟩
  have hlargest : largest.InRange := by
    intro r hr
    simp only [largest, List.mem_cons, List.not_mem_nil, or_false] at hr
    rcases hr with rfl | rfl
    · refine ⟨Nat.le_refl _, fun o ho => ?_⟩
      cases ho
      exact ⟨Nat.le_refl _, Nat.le_refl _⟩
    · refine ⟨Nat.zero_le _, fun o ho => ?_⟩
      cases ho
  have hoptions : BufferOptions.InRange ⟨word64Max, 1⟩ := ⟨Nat.le_refl _, by decide⟩
  have hqueue : QueueResponse.InRange ⟨"jobs", word64Max, 0⟩ := ⟨Nat.le_refl _, Nat.zero_le _⟩
  obtain ⟨-, hevents, hchannels, hqueues, -, -, -, -, -, -, hconnections, -⟩ := wire_agreement c
  exact ⟨c, hc, hlargest, hevents largest hlargest, hoptions, hchannels _ _ hoptions, hqueue,
    by decide, (hqueues "jobs" _ hqueue).2 200 (by decide),
    hconnections ⟨word64Max⟩ (Nat.le_refl _) 200 (by decide)⟩

end Client

end EventBroker
