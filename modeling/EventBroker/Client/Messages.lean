import EventBroker.Api.Requests

/-! # What a client reads and writes

The shapes of a client's values as JSON. A client is lenient where a broker may leave something out,
and leaves out what is absent in its own requests.
-/
set_option autoImplicit false

namespace EventBroker.Client
open Json

/-- A queue as a client sees it. Counters that are missing are zero. -/
structure Queue where
  id : String
  pendingEvents : Nat
  deliveredEvents : Nat
  deriving DecidableEq, Repr

namespace Queue

def decode : Decoder Queue := fun d =>
  ((FieldList.cons (.required "id" Decode.text)
    (.cons ((Field.withDefault "pending_events" Decode.word64 0).orNamed "pending_events_count")
    (.cons (.withDefault "delivered_events" Decode.word64 0) .nil))).decode "Queue" d).map
    fun (id, pendingEvents, deliveredEvents, ()) => ⟨id, pendingEvents, deliveredEvents⟩

def toJson (q : Queue) : Json :=
  .object [("id", .string q.id), ("pending_events", .nat q.pendingEvents),
    ("delivered_events", .nat q.deliveredEvents)]

end Queue

def present (name : String) (value : Option Json) : List (String × Json) :=
  (value.map (name, ·)).toList

structure ScheduleRule where
  queue : String
  scheduleFor : Nat
  recurringOptions : Option Api.RecurringOptions
  deriving DecidableEq, Repr

namespace ScheduleRule

def decode : Decoder ScheduleRule := fun d =>
  ((FieldList.cons (.required "queue" Decode.text)
    (.cons (.required "schedule_for" Decode.word64)
    (.cons (.withDefault "recurring_options" (Decode.optional Api.RecurringOptions.decode) none)
      .nil))).decode "ScheduleRule" d).map
    fun (queue, scheduleFor, recurringOptions, ()) => ⟨queue, scheduleFor, recurringOptions⟩

def toJson (r : ScheduleRule) : Json :=
  .object ([("queue", .string r.queue), ("schedule_for", .nat r.scheduleFor)] ++
    present "recurring_options" (r.recurringOptions.map Api.RecurringOptions.toJson))

end ScheduleRule

structure NewEvent where
  data : String
  category : Option String
  scheduleRules : List ScheduleRule
  deriving DecidableEq, Repr

namespace NewEvent

def decode : Decoder NewEvent := fun d =>
  ((FieldList.cons (.required "data" Decode.text)
    (.cons (.withDefault "category" (Decode.optional Decode.text) none)
    (.cons (.required "schedule_rules" (Decode.list ScheduleRule.decode)) .nil))).decode
      "NewEvent" d).map
    fun (data, category, scheduleRules, ()) => ⟨data, category, scheduleRules⟩

def toJson (e : NewEvent) : Json :=
  .object ([("data", .string e.data)] ++ present "category" (e.category.map .string) ++
    [("schedule_rules", .array (e.scheduleRules.map ScheduleRule.toJson))])

end NewEvent

/-- A channel as a client sees it. Without a word on its buffer it holds nothing and is not ready.
-/
structure Channel where
  channelId : String
  queues : List String
  bufferOptions : BufferOptions
  bufferedEvents : Nat
  ready : Bool
  deriving DecidableEq, Repr

namespace Channel

def decode : Decoder Channel := fun d =>
  ((FieldList.cons (.required "channel_id" Decode.text)
    (.cons (.required "queues" (Decode.list Decode.text))
    (.cons (.required "buffer_options" Api.bufferOptions)
    (.cons (.withDefault "buffered_events" Decode.count 0)
    (.cons (.withDefault "ready" Decode.flag false) .nil))))).decode "Channel" d).map
    fun (channelId, queues, bufferOptions, bufferedEvents, ready, ()) =>
      ⟨channelId, queues, bufferOptions, bufferedEvents, ready⟩

def toJson (c : Channel) : Json :=
  .object [("channel_id", .string c.channelId), ("queues", .array (c.queues.map .string)),
    ("buffer_options", Api.bufferOptionsJson c.bufferOptions),
    ("buffered_events", .nat c.bufferedEvents), ("ready", .bool c.ready)]

end Channel

structure ChannelEvent where
  data : String
  deriving DecidableEq, Repr

namespace ChannelEvent

def decode : Decoder ChannelEvent := fun d =>
  ((FieldList.cons (.required "data" Decode.text) .nil).decode "ChannelEvent" d).map
    fun (data, ()) => ⟨data⟩

def toJson (e : ChannelEvent) : Json := .object [("data", .string e.data)]

end ChannelEvent

/-! ## Replies that wrap one value -/

/-- The one field of a reply; `record` names the reply in messages. -/
def decodeOnly {α : Type} (record name : String) (decode : Decoder α) : Decoder α := fun d =>
  ((FieldList.cons (.required name decode) .nil).decode record d).map fun (a, ()) => a

def decodeQueueList : Decoder (List Queue) :=
  decodeOnly "QueueList" "queues" (Decode.list Queue.decode)

def decodeEventCreated : Decoder String := decodeOnly "EventCreated" "event_id" Decode.text

def decodeChannelCreated : Decoder String := decodeOnly "ChannelCreated" "channel_id" Decode.text

def decodeChannelList : Decoder (List String) :=
  decodeOnly "ChannelList" "channels" (Decode.list Decode.text)

def decodeChannelEvents : Decoder (List ChannelEvent) :=
  decodeOnly "ChannelEvents" "events" (Decode.list ChannelEvent.decode)

def decodeConnections : Decoder Nat := decodeOnly "Connections" "clients_connected" Decode.count

end EventBroker.Client
