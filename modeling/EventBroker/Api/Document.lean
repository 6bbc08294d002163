import EventBroker.Json.Basic

/-! # The description of the interface

The OpenAPI document of the broker: every path with its operations, and the schema of every body.
-/
set_option autoImplicit false

namespace EventBroker.Api.Document

/-! ## Schemas -/

def textSchema : Json := .object [("type", .string "string")]

def flagSchema : Json := .object [("type", .string "boolean")]

def optionalTextSchema : Json :=
  .object [("type", .array [.string "string", .string "null"])]

/-- A natural number of a format with a size. -/
def wordSchema (format : String) : Json :=
  .object [("type", .string "integer"), ("format", .string format), ("minimum", .nat 0)]

def word32Schema : Json := wordSchema "int32"

def word64Schema : Json := wordSchema "int64"

def countSchema : Json := .object [("type", .string "integer"), ("minimum", .nat 0)]

def reference (name : String) : Json :=
  .object [("$ref", .string ("#/components/schemas/" ++ name))]

def optionalReference (name : String) : Json :=
  .object [("oneOf", .array [.object [("type", .string "null")], reference name])]

def listSchema (items : Json) : Json :=
  .object [("type", .string "array"), ("items", items)]

def described (schema : Json) (description : String) : Json :=
  match schema with
  | .object members => .object (members ++ [("description", .string description)])
  | other => other

/-- A field of a record: its name, its schema and whether it must be there. -/
structure FieldSchema where
  name : String
  schema : Json
  required : Bool

def FieldSchema.must (name : String) (schema : Json) : FieldSchema := ⟨name, schema, true⟩

def FieldSchema.may (name : String) (schema : Json) : FieldSchema := ⟨name, schema, false⟩

open FieldSchema (must may)

def record (fields : List FieldSchema) : Json :=
  .object [("type", .string "object"),
    ("required", .array ((fields.filter (·.required)).map fun f => .string f.name)),
    ("properties", .object (fields.map fun f => (f.name, f.schema)))]

def schemas : List (String × Json) :=
  [("ErrorResponse", record [must "code" textSchema, must "message" textSchema,
      may "request_id" optionalTextSchema]),
   ("QueueCreateRequest", record [must "id" textSchema]),
   ("QueueResponse", record [must "id" textSchema, must "pending_events" word64Schema,
      must "delivered_events" word64Schema]),
   ("QueueListResponse", record [must "queues" (listSchema (reference "QueueResponse"))]),
   ("RecurringOptions", record [must "times" word32Schema,
      must "delay" (described word64Schema "Milliseconds between occurrences.")]),
   ("ScheduleRuleRequest", record [must "queue" textSchema,
      must "schedule_for" (described word64Schema "Absolute fire time in epoch milliseconds."),
      may "recurring_options" (optionalReference "RecurringOptions")]),
   ("EventCreateRequest", record [
      must "data" (described textSchema "Opaque payload, delivered verbatim."),
      may "category" optionalTextSchema,
      may "schedule_rules" (listSchema (reference "ScheduleRuleRequest"))]),
   ("EventCreatedResponse", record [must "event_id" textSchema]),
   ("BufferOptionsBody", record [
      must "time" (described word64Schema "Max milliseconds an event may sit unflushed."),
      must "size" (described countSchema "Max buffered events before a forced flush.")]),
   ("ChannelCreateRequest", record [must "buffer_options" (reference "BufferOptionsBody"),
      may "queues" (listSchema textSchema)]),
   ("ChannelCreatedResponse", record [must "channel_id" textSchema]),
   ("ChannelListResponse", record [must "channels" (listSchema textSchema)]),
   ("ChannelResponse", record [must "channel_id" textSchema,
      must "queues" (listSchema textSchema),
      must "buffer_options" (reference "BufferOptionsBody"),
      must "buffered_events" countSchema, must "ready" flagSchema]),
   ("ChannelEvent", record [must "data" textSchema]),
   ("ChannelEventsResponse", record [must "events" (listSchema (reference "ChannelEvent"))]),
   ("ConnectionsInfo", record [must "clients_connected" countSchema]),
   ("StreamEvent", described (record [must "event_id" textSchema, must "queue" textSchema,
      must "category" textSchema, must "data" textSchema,
      must "schedule_for" (described word64Schema "Scheduled fire time, epoch milliseconds."),
      must "fired_at" (described word64Schema "Actual fire time, epoch milliseconds.")])
      "One pushed WebSocket text frame.")]

/-! ## Operations -/

structure Answer where
  status : String
  description : String
  content : Option (String × Json)

def bare (status description : String) : Answer := ⟨status, description, none⟩

def plain (status description : String) : Answer :=
  ⟨status, description, some ("text/plain", textSchema)⟩

def shaped (status description schema : String) : Answer :=
  ⟨status, description, some ("application/json", reference schema)⟩

def contentJson (type : String) (schema : Json) : Json :=
  .object [(type, .object [("schema", schema)])]

def Answer.toJson (a : Answer) : Json :=
  .object (("description", .string a.description) ::
    (a.content.map fun (type, schema) => ("content", contentJson type schema)).toList)

structure Operation where
  method : String
  tag : String
  id : String
  /-- The parameter in the path and what it says. -/
  parameter : Option (String × String)
  /-- The schema of the request's body. -/
  request : Option String
  answers : List Answer

def parameterJson (name description : String) : Json :=
  .object [("name", .string name), ("in", .string "path"), ("description", .string description),
    ("required", .bool true), ("schema", textSchema)]

def requestJson (schema : String) : Json :=
  .object [("content", contentJson "application/json" (reference schema)),
    ("required", .bool true)]

def Operation.toJson (o : Operation) : Json :=
  .object ([("tags", .array [.string o.tag]), ("operationId", .string o.id)] ++
    (o.parameter.map fun (name, description) =>
      ("parameters", Json.array [parameterJson name description])).toList ++
    (o.request.map fun schema => ("requestBody", requestJson schema)).toList ++
    [("responses", .object (o.answers.map fun a => (a.status, a.toJson)))])

def braced (name : String) : String := "\x7b" ++ name ++ "\x7d"

def queueParameter : Option (String × String) := some ("id", "Queue identifier")

def channelParameter : Option (String × String) := some ("channel_id", "Channel identifier")

def categoryParameter : Option (String × String) :=
  some ("category", "Event category, or a queue id for uncategorised events")

def paths : List (String × List Operation) :=
  [("/health",
      [⟨"get", "system", "health", none, none, [plain "200" "Broker is up"]⟩]),
   ("/connections",
      [⟨"get", "system", "connections", none, none,
        [shaped "200" "Live streaming subscribers" "ConnectionsInfo"]⟩]),
   ("/queues",
      [⟨"get", "queues", "list_queues", none, none,
        [shaped "200" "Queues in creation order" "QueueListResponse"]⟩,
       ⟨"post", "queues", "create_queue", none, some "QueueCreateRequest",
        [shaped "200" "Queue registered (repeat creates succeed)" "QueueResponse",
         shaped "400" "Invalid queue id" "ErrorResponse"]⟩]),
   ("/queues/" ++ braced "id",
      [⟨"get", "queues", "get_queue", queueParameter, none,
        [shaped "200" "Queue with delivery counters" "QueueResponse",
         bare "404" "Queue not found"]⟩,
       ⟨"delete", "queues", "delete_queue", queueParameter, none,
        [bare "200" "Queue removed; its pending rules are cancelled",
         bare "404" "Queue not found"]⟩]),
   ("/events",
      [⟨"post", "events", "schedule_event", none, some "EventCreateRequest",
        [shaped "200" "Event accepted and every rule armed" "EventCreatedResponse",
         shaped "400" "Empty rules or invalid recurrence" "ErrorResponse",
         plain "404" "A rule names an unknown queue"]⟩]),
   ("/channels",
      [⟨"get", "channels", "list_channels", none, none,
        [shaped "200" "Channel ids in creation order" "ChannelListResponse"]⟩,
       ⟨"post", "channels", "create_channel", none, some "ChannelCreateRequest",
        [shaped "200" "Channel created" "ChannelCreatedResponse",
         shaped "400" "No queues or zero size" "ErrorResponse",
         plain "404" "A member queue does not exist"]⟩]),
   ("/channels/" ++ braced "channel_id",
      [⟨"get", "channels", "get_channel", channelParameter, none,
        [shaped "200" "Channel definition and buffer status" "ChannelResponse",
         plain "404" "Channel not found"]⟩,
       ⟨"delete", "channels", "delete_channel", channelParameter, none,
        [bare "200" "Channel removed, buffered events discarded",
         plain "404" "Channel not found"]⟩]),
   ("/channels/" ++ braced "channel_id" ++ "/events",
      [⟨"get", "channels", "dequeue_events", channelParameter, none,
        [shaped "200" "Everything buffered, in arrival order; the buffer is emptied"
          "ChannelEventsResponse",
         plain "404" "Channel not found"]⟩]),
   ("/ws/events/" ++ braced "category",
      [⟨"get", "stream", "stream_events", categoryParameter, none,
        [shaped "101" "Upgraded; each text frame is a JSON StreamEvent" "StreamEvent"]⟩])]

/-! ## The document -/

def info : Json :=
  .object [("title", .string "kairo-broker"),
    ("description", .string "Kairo scheduling broker HTTP API"),
    ("license", .object [("name", .string "Apache-2.0"), ("identifier", .string "Apache-2.0")]),
    ("version", .string "v1")]

def tag (name description : String) : Json :=
  .object [("name", .string name), ("description", .string description)]

def tags : Json :=
  .array [tag "system" "Health and connection info", tag "queues" "Queue registry",
    tag "events" "Event scheduling", tag "channels" "Buffered channels",
    tag "stream" "Live WebSocket push"]

end EventBroker.Api.Document

namespace EventBroker.Api

def document : Json :=
  .object [("openapi", .string "3.1.0"), ("info", Document.info),
    ("paths", .object (Document.paths.map fun (path, operations) =>
      (path, .object (operations.map fun o => (o.method, o.toJson))))),
    ("components", .object [("schemas", .object Document.schemas)]),
    ("tags", Document.tags)]

end EventBroker.Api
