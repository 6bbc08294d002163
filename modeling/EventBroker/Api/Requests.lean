import EventBroker.Channel
import EventBroker.Event
import EventBroker.Json.Decode
import EventBroker.Text.Utf8

/-! # What callers send

The bodies of requests: how each is read from JSON, how it is written, and what it means to the
broker. Reading what was written gives the same value.
-/
set_option autoImplicit false

namespace EventBroker.Api
open Json

/-! ## Queues -/

structure QueueCreateRequest where
  id : String
  deriving DecidableEq, Repr

namespace QueueCreateRequest

def decode : Decoder QueueCreateRequest := fun d =>
  ((FieldList.cons (.required "id" Decode.text) .nil).decode "QueueCreateRequest" d).map
    fun (id, ()) => ⟨id⟩

def toJson (r : QueueCreateRequest) : Json := .object [("id", .string r.id)]

end QueueCreateRequest

/-! ## Events -/

structure RecurringOptions where
  times : Nat
  delay : Nat
  deriving DecidableEq, Repr

namespace RecurringOptions

def decode : Decoder RecurringOptions := fun d =>
  ((FieldList.cons (.required "times" Decode.word32)
    (.cons (.required "delay" Decode.word64) .nil)).decode "RecurringOptions" d).map
    fun (times, delay, ()) => ⟨times, delay⟩

def toJson (r : RecurringOptions) : Json :=
  .object [("times", .nat r.times), ("delay", .nat r.delay)]

end RecurringOptions

structure ScheduleRuleRequest where
  queue : String
  scheduleFor : Nat
  recurringOptions : Option RecurringOptions
  deriving DecidableEq, Repr

namespace ScheduleRuleRequest

def decode : Decoder ScheduleRuleRequest := fun d =>
  ((FieldList.cons (.required "queue" Decode.text)
    (.cons ((Field.required "schedule_for" Decode.word64).orNamed "schedule_at")
    (.cons (.withDefault "recurring_options" (Decode.optional RecurringOptions.decode) none)
      .nil))).decode "ScheduleRuleRequest" d).map
    fun (queue, scheduleFor, recurringOptions, ()) => ⟨queue, scheduleFor, recurringOptions⟩

def toJson (r : ScheduleRuleRequest) : Json :=
  .object [("queue", .string r.queue), ("schedule_for", .nat r.scheduleFor),
    ("recurring_options", (r.recurringOptions.map RecurringOptions.toJson).getD .null)]

def toRule (r : ScheduleRuleRequest) : ScheduleRule :=
  ⟨r.queue, r.scheduleFor, r.recurringOptions.map fun o => ⟨o.times, o.delay⟩⟩

end ScheduleRuleRequest

structure EventCreateRequest where
  data : String
  category : Option String
  scheduleRules : List ScheduleRuleRequest
  deriving DecidableEq, Repr

namespace EventCreateRequest

def decode : Decoder EventCreateRequest := fun d =>
  ((FieldList.cons (.required "data" Decode.text)
    (.cons (.withDefault "category" (Decode.optional Decode.text) none)
    (.cons (.withDefault "schedule_rules" (Decode.list ScheduleRuleRequest.decode) [])
      .nil))).decode "EventCreateRequest" d).map
    fun (data, category, scheduleRules, ()) => ⟨data, category, scheduleRules⟩

def toJson (r : EventCreateRequest) : Json :=
  .object [("data", .string r.data), ("category", .optional r.category),
    ("schedule_rules", .array (r.scheduleRules.map ScheduleRuleRequest.toJson))]

/-- The event that is asked for; its payload is the UTF-8 of the text. -/
def toEvent (r : EventCreateRequest) : NewEvent :=
  ⟨Utf8.ofString r.data, r.category, r.scheduleRules.map ScheduleRuleRequest.toRule⟩

end EventCreateRequest

/-! ## Channels -/

/-- Reads buffer options; `record` names the record in messages. -/
def decodeBufferOptions (record : String) : Decoder BufferOptions := fun d =>
  ((FieldList.cons (.required "time" Decode.word64)
    (.cons (.required "size" Decode.count) .nil)).decode record d).map
    fun (time, size, ()) => ⟨time, size⟩

def bufferOptionsBody : Decoder BufferOptions := decodeBufferOptions "BufferOptionsBody"

def bufferOptions : Decoder BufferOptions := decodeBufferOptions "BufferOptions"

def bufferOptionsJson (o : BufferOptions) : Json :=
  .object [("time", .nat o.time), ("size", .nat o.size)]

structure ChannelCreateRequest where
  bufferOptions : BufferOptions
  queues : List String
  deriving DecidableEq, Repr

namespace ChannelCreateRequest

def decode : Decoder ChannelCreateRequest := fun d =>
  ((FieldList.cons (.required "buffer_options" bufferOptionsBody)
    (.cons (.withDefault "queues" (Decode.list Decode.text) []) .nil)).decode
      "ChannelCreateRequest" d).map
    fun (bufferOptions, queues, ()) => ⟨bufferOptions, queues⟩

def toJson (r : ChannelCreateRequest) : Json :=
  .object [("buffer_options", bufferOptionsJson r.bufferOptions),
    ("queues", .array (r.queues.map .string))]

end ChannelCreateRequest

end EventBroker.Api
