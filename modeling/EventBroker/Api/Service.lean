import EventBroker.Api.Document
import EventBroker.Api.Resource
import EventBroker.Broker.Channels
import EventBroker.Broker.Events
import EventBroker.Broker.Queues
import EventBroker.Broker.Streams
import EventBroker.Http.MediaType
import EventBroker.Http.Message
import EventBroker.Json.Reader

/-! # The broker behind HTTP

`serve` answers one request: it finds the resource, decodes what the request says about it, asks the
broker and encodes what the broker says. Every action on the broker is one operation of the broker,
or for creating a queue two.
-/
set_option autoImplicit false

namespace EventBroker.Api
open Http

/-- The identifiers that the next channel and the next event get. -/
structure FreshIds where
  channel : ChannelId
  event : EventId

/-- What a request comes to: a response, or a stream of the events of one subscription. -/
inductive Reply where
  | response (r : Response)
  | stream (s : Subscription)

/-! ## Decoding requests -/

def maxBodyBytes : Nat := 2097152

def bodyErrorMessage (e : Json.DecodeError) : String :=
  match e.fault.category with
  | .data => "Failed to deserialize the JSON body into the target type: " ++ e.message
  | _ => "Failed to parse the request body as JSON: " ++ e.message

/-- Whether a request says that its body is JSON. Only printable ASCII text says anything. -/
def saysJson (req : Request) : Bool :=
  match req.contentType with
  | none => false
  | some text =>
    text.toList.all (fun c => (32 ≤ c.toNat && c.toNat ≤ 126) || c == '\t') &&
      (MediaType.parse? text).any MediaType.isJson

/-- The value that the body of a request writes. What follows the value is not looked at. -/
def readBody {α : Type} (decode : Json.Decoder α) (req : Request) : Except String α :=
  if !saysJson req then .error "Expected request with `Content-Type: application/json`"
  else if maxBodyBytes < req.body.length then
    .error "Failed to buffer the request body: length limit exceeded"
  else (Json.decodeFront decode req.body).mapError bodyErrorMessage

/-! ## Encoding answers -/

def withBody {α : Type} (b : Broker) (decode : Json.Decoder α) (req : Request)
    (run : α → Response × Broker) : Response × Broker :=
  match readBody decode req with
  | .error message => (.invalid message, b)
  | .ok a => run a

def respond {α : Type} (refuse : BrokerError → Response) (accept : α → Response)
    (outcome : Broker.Outcome α) : Response × Broker :=
  match outcome with
  | (.ok a, b) => (accept a, b)
  | (.error e, b) => (refuse e, b)

/-- The channel that a text names. A text that is no identifier names no channel. -/
def withChannel (b : Broker) (text : String) (run : ChannelId → Response × Broker) :
    Response × Broker :=
  match ChannelId.parse? text with
  | none => (.ofError (.channelNotFound text), b)
  | some id => run id

def createQueue (b : Broker) (id : String) : Broker.Outcome QueueInfo :=
  match b.createQueue id with
  | (.error e, b) => (.error e, b)
  | (.ok _, b) => b.getQueue id

/-! ## Resources -/

/-- The name that a segment of the path stands for; the request fails if its bytes are no UTF-8. -/
def withName {α : Type} (parameter raw : String) (refuse : Response → α) (run : String → α) : α :=
  match Percent.decodeText? raw with
  | none => refuse (.text 400 ("Invalid URL: Invalid UTF-8 in `" ++ parameter ++ "`"))
  | some name => run name

/-- Does to a resource what a request asks for. Streams are opened elsewhere. -/
def answer (b : Broker) (fresh : FreshIds) (m : Moment) (req : Request) :
    Resource → Verb → Option (Response × Broker)
  | .health, .get => some (.text 200 "200 OK", b)
  | .connections, .get => some (.ok (ConnectionsInfo.toJson ⟨b.subscriberCount⟩), b)
  | .description, .get => some (.ok document, b)
  | .queues, .get =>
    some (.ok (QueueListResponse.toJson ⟨b.listQueues.map QueueResponse.ofInfo⟩), b)
  | .queues, .post =>
    some (withBody b QueueCreateRequest.decode req fun body =>
      respond .ofQueueError (fun q => .ok (QueueResponse.ofInfo q).toJson)
        (createQueue b body.id))
  | .queue raw, .get =>
    some (withName "id" raw (·, b) fun id =>
      respond .ofQueueError (fun q => .ok (QueueResponse.ofInfo q).toJson) (b.getQueue id))
  | .queue raw, .delete =>
    some (withName "id" raw (·, b) fun id =>
      respond .ofQueueError (fun _ => .empty 200) (b.deleteQueue id))
  | .events, .post =>
    some (withBody b EventCreateRequest.decode req fun body =>
      respond .ofError (fun id => .ok (EventCreatedResponse.toJson ⟨id.toText⟩))
        (b.submit fresh.event body.toEvent))
  | .channels, .get =>
    some (.ok (ChannelListResponse.toJson ⟨b.listChannels.map ChannelId.toText⟩), b)
  | .channels, .post =>
    some (withBody b ChannelCreateRequest.decode req fun body =>
      respond .ofError (fun id => .ok (ChannelCreatedResponse.toJson ⟨id.toText⟩))
        (b.createChannel fresh.channel body.queues body.bufferOptions m))
  | .channel raw, .get =>
    some (withName "channel_id" raw (·, b) fun text => withChannel b text fun id =>
      respond .ofError (fun c => .ok (ChannelResponse.ofInfo c).toJson) (b.getChannel id m))
  | .channel raw, .delete =>
    some (withName "channel_id" raw (·, b) fun text => withChannel b text fun id =>
      respond .ofError (fun _ => .empty 200) (b.deleteChannel id))
  | .channelEvents raw, .get =>
    some (withName "channel_id" raw (·, b) fun text => withChannel b text fun id =>
      respond .ofError
        (fun events => .ok (ChannelEventsResponse.toJson ⟨events.map ChannelEvent.ofDelivered⟩))
        (b.dequeue id m))
  | _, _ => none

/-- Opens a stream of a category, if the request asks for a WebSocket. -/
def openStream (b : Broker) (req : Request) (raw : String) : Except Crash (Reply × Broker) :=
  let refuse (r : Response) : Except Crash (Reply × Broker) := .ok (.response r, b)
  if req.method ≠ "GET" then refuse (.text 405 "Request method must be `GET`")
  else if !req.upgrade then refuse (.text 400 "Connection header did not include 'upgrade'")
  else
    withName "category" raw refuse fun category =>
      (b.subscribe category).map fun (s, b) => (.stream s, b)

/-! ## Requests -/

/-- The response as a method wants it: without its body for `HEAD`. -/
def forMethod (method : String) (r : Response) : Response :=
  if method = "HEAD" then r.withoutBody else r

def Reply.forMethod (method : String) : Reply → Reply
  | .response r => .response (Api.forMethod method r)
  | .stream s => .stream s

def notAllowed (resource : Resource) : Response :=
  { Response.empty 405 with allow := some resource.allow }

def serve (b : Broker) (fresh : FreshIds) (m : Moment) (req : Request) :
    Except Crash (Reply × Broker) :=
  match Resource.ofPath? req.path with
  | none => .ok (.response .notFound, b)
  | some resource =>
    match resource.verb? req.method, resource with
    | none, _ => .ok (.response (notAllowed resource), b)
    | some .get, .stream raw =>
      (openStream b req raw).map fun (reply, b) => (reply.forMethod req.method, b)
    | some verb, _ =>
      match answer b fresh m req resource verb with
      | some (r, b) => .ok (.response (forMethod req.method r), b)
      | none => .ok (.response (notAllowed resource), b)

end EventBroker.Api
