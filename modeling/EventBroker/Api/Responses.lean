import EventBroker.Api.Requests
import EventBroker.Queue

/-! # What callers get

The bodies of answers: how each is made from the broker's values, written as JSON and read again.
Payloads are shown as text, with a replacement character for each part that is no UTF-8.
-/
set_option autoImplicit false

namespace EventBroker.Api
open Json

/-! ## Errors -/

structure ErrorResponse where
  code : String
  message : String
  requestId : Option String
  deriving DecidableEq, Repr

namespace ErrorResponse

def decode : Decoder ErrorResponse := fun d =>
  ((FieldList.cons (.required "code" Decode.text)
    (.cons (.required "message" Decode.text)
    (.cons (.nullable "request_id" Decode.text) .nil))).decode "ErrorResponse" d).map
    fun (code, message, requestId, ()) => ⟨code, message, requestId⟩

def toJson (r : ErrorResponse) : Json :=
  .object [("code", .string r.code), ("message", .string r.message),
    ("request_id", .optional r.requestId)]

end ErrorResponse

/-! ## Queues -/

structure QueueResponse where
  id : String
  pendingEvents : Nat
  deliveredEvents : Nat
  deriving DecidableEq, Repr

namespace QueueResponse

def ofInfo (q : QueueInfo) : QueueResponse := ⟨q.id, q.pending, q.delivered⟩

def decode : Decoder QueueResponse := fun d =>
  ((FieldList.cons (.required "id" Decode.text)
    (.cons (.required "pending_events" Decode.word64)
    (.cons (.required "delivered_events" Decode.word64) .nil))).decode "QueueResponse" d).map
    fun (id, pendingEvents, deliveredEvents, ()) => ⟨id, pendingEvents, deliveredEvents⟩

def toJson (r : QueueResponse) : Json :=
  .object [("id", .string r.id), ("pending_events", .nat r.pendingEvents),
    ("delivered_events", .nat r.deliveredEvents)]

end QueueResponse

structure QueueListResponse where
  queues : List QueueResponse
  deriving DecidableEq, Repr

namespace QueueListResponse

def decode : Decoder QueueListResponse := fun d =>
  ((FieldList.cons (.required "queues" (Decode.list QueueResponse.decode)) .nil).decode
    "QueueListResponse" d).map fun (queues, ()) => ⟨queues⟩

def toJson (r : QueueListResponse) : Json :=
  .object [("queues", .array (r.queues.map QueueResponse.toJson))]

end QueueListResponse

/-! ## Events -/

structure EventCreatedResponse where
  eventId : String
  deriving DecidableEq, Repr

def EventCreatedResponse.toJson (r : EventCreatedResponse) : Json :=
  .object [("event_id", .string r.eventId)]

/-! ## Channels -/

structure ChannelCreatedResponse where
  channelId : String
  deriving DecidableEq, Repr

def ChannelCreatedResponse.toJson (r : ChannelCreatedResponse) : Json :=
  .object [("channel_id", .string r.channelId)]

structure ChannelListResponse where
  channels : List String
  deriving DecidableEq, Repr

def ChannelListResponse.toJson (r : ChannelListResponse) : Json :=
  .object [("channels", .array (r.channels.map .string))]

structure ChannelResponse where
  channelId : String
  queues : List String
  bufferOptions : BufferOptions
  bufferedEvents : Nat
  ready : Bool
  deriving DecidableEq, Repr

namespace ChannelResponse

def ofInfo (c : ChannelInfo) : ChannelResponse :=
  ⟨c.id.toText, c.queues, c.options, c.buffered, c.ready⟩

def decode : Decoder ChannelResponse := fun d =>
  ((FieldList.cons (.required "channel_id" Decode.text)
    (.cons (.required "queues" (Decode.list Decode.text))
    (.cons (.required "buffer_options" bufferOptionsBody)
    (.cons (.required "buffered_events" Decode.count)
    (.cons (.required "ready" Decode.flag) .nil))))).decode "ChannelResponse" d).map
    fun (channelId, queues, bufferOptions, bufferedEvents, ready, ()) =>
      ⟨channelId, queues, bufferOptions, bufferedEvents, ready⟩

def toJson (r : ChannelResponse) : Json :=
  .object [("channel_id", .string r.channelId), ("queues", .array (r.queues.map .string)),
    ("buffer_options", bufferOptionsJson r.bufferOptions),
    ("buffered_events", .nat r.bufferedEvents), ("ready", .bool r.ready)]

end ChannelResponse

structure ChannelEvent where
  data : String
  deriving DecidableEq, Repr

namespace ChannelEvent

def ofDelivered (e : DeliveredEvent) : ChannelEvent := ⟨Utf8.toStringLossy e.data⟩

def decode : Decoder ChannelEvent := fun d =>
  ((FieldList.cons (.required "data" Decode.text) .nil).decode "ChannelEvent" d).map
    fun (data, ()) => ⟨data⟩

def toJson (e : ChannelEvent) : Json := .object [("data", .string e.data)]

end ChannelEvent

structure ChannelEventsResponse where
  events : List ChannelEvent
  deriving DecidableEq, Repr

namespace ChannelEventsResponse

def decode : Decoder ChannelEventsResponse := fun d =>
  ((FieldList.cons (.required "events" (Decode.list ChannelEvent.decode)) .nil).decode
    "ChannelEventsResponse" d).map fun (events, ()) => ⟨events⟩

def toJson (r : ChannelEventsResponse) : Json :=
  .object [("events", .array (r.events.map ChannelEvent.toJson))]

end ChannelEventsResponse

/-! ## Streams -/

structure ConnectionsInfo where
  clientsConnected : Nat
  deriving DecidableEq, Repr

def ConnectionsInfo.toJson (r : ConnectionsInfo) : Json :=
  .object [("clients_connected", .nat r.clientsConnected)]

structure StreamEvent where
  eventId : String
  queue : String
  category : String
  data : String
  scheduleFor : Nat
  firedAt : Nat
  deriving DecidableEq, Repr

namespace StreamEvent

def ofDelivered (e : DeliveredEvent) : StreamEvent :=
  ⟨e.eventId.toText, e.queue, e.category, Utf8.toStringLossy e.data, e.fireAt, e.firedAt⟩

def decode : Decoder StreamEvent := fun d =>
  ((FieldList.cons (.required "event_id" Decode.text)
    (.cons (.required "queue" Decode.text)
    (.cons (.required "category" Decode.text)
    (.cons (.required "data" Decode.text)
    (.cons (.required "schedule_for" Decode.word64)
    (.cons (.required "fired_at" Decode.word64) .nil)))))).decode "StreamEvent" d).map
    fun (eventId, queue, category, data, scheduleFor, firedAt, ()) =>
      ⟨eventId, queue, category, data, scheduleFor, firedAt⟩

def toJson (e : StreamEvent) : Json :=
  .object [("event_id", .string e.eventId), ("queue", .string e.queue),
    ("category", .string e.category), ("data", .string e.data),
    ("schedule_for", .nat e.scheduleFor), ("fired_at", .nat e.firedAt)]

end StreamEvent

end EventBroker.Api
