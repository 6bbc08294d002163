import EventBroker.Client.Messages
import EventBroker.Http.Status
import EventBroker.Json.Reader
import EventBroker.Url.Parse

/-! # Calls to a broker

A client knows the URL of a broker. Each call is one request, made from the segments of its path and
maybe a body, with a way to read the reply. `Client.perform` makes a call over a network, which is
a function from requests to replies.
-/
set_option autoImplicit false

namespace EventBroker

inductive ClientError where
  /-- The URL of the broker is malformed, or has no path to add to. -/
  | invalidUrl (reason : String)
  | unreachable
  /-- All went well, but the reply is not what the call wants. -/
  | undecodable
  | notFound (body : String)
  | refused (status : Nat) (body : String)
  deriving DecidableEq, Repr

namespace ClientError

/-- What is said about an error. What the network or a decoder has to add is not known here. -/
def message : ClientError → String
  | invalidUrl reason => "invalid base url: " ++ reason
  | unreachable | undecodable => "request failed"
  | notFound body => "not found: " ++ body
  | refused status body => "unexpected status " ++ Http.statusText status ++ ": " ++ body

end ClientError

namespace Client

structure Request where
  method : String
  url : Url
  body : Option Json

namespace Request

def contentType (r : Request) : Option String := r.body.map fun _ => "application/json"

end Request

structure Reply where
  status : Nat
  body : List UInt8

namespace Reply

/-- The text of the body. A byte order mark in front does not count. -/
def text (r : Reply) : String :=
  Utf8.toStringLossy (match r.body with
    | 0xEF :: 0xBB :: 0xBF :: rest => rest
    | body => body)

end Reply

/-- A way over which requests go and replies come back, if any do. -/
abbrev Network := Request → Option Reply

/-- What is asked for, and how a good reply to it is read. -/
structure Call (α : Type) where
  method : String
  segments : List String
  body : Option Json
  read : Reply → Option α

namespace Call

def ignore : Reply → Option Unit := fun _ => some ()

def json {α : Type} (decode : Json.Decoder α) (r : Reply) : Option α :=
  (Json.decodeWhole decode r.body).toOption

def health : Call String := ⟨"GET", ["health"], none, fun r => some r.text⟩

def createQueue (id : String) : Call Unit :=
  ⟨"POST", ["queues"], some (.object [("id", .string id)]), ignore⟩

def listQueues : Call (List Queue) := ⟨"GET", ["queues"], none, json decodeQueueList⟩

def getQueue (id : String) : Call Queue := ⟨"GET", ["queues", id], none, json Queue.decode⟩

def deleteQueue (id : String) : Call Unit := ⟨"DELETE", ["queues", id], none, ignore⟩

def scheduleEvent (e : NewEvent) : Call String :=
  ⟨"POST", ["events"], some e.toJson, json decodeEventCreated⟩

def createChannel (queues : List String) (options : BufferOptions) : Call String :=
  ⟨"POST", ["channels"],
    some (.object [("buffer_options", Api.bufferOptionsJson options),
      ("queues", .array (queues.map .string))]),
    json decodeChannelCreated⟩

def listChannels : Call (List String) := ⟨"GET", ["channels"], none, json decodeChannelList⟩

def getChannel (id : String) : Call Channel := ⟨"GET", ["channels", id], none, json Channel.decode⟩

def deleteChannel (id : String) : Call Unit := ⟨"DELETE", ["channels", id], none, ignore⟩

def dequeue (id : String) : Call (List ChannelEvent) :=
  ⟨"GET", ["channels", id, "events"], none, json decodeChannelEvents⟩

def connections : Call Nat := ⟨"GET", ["connections"], none, json decodeConnections⟩

def result {α : Type} (call : Call α) (reply : Reply) : Except ClientError α :=
  if Http.isSuccess reply.status then
    match call.read reply with
    | some a => .ok a
    | none => .error .undecodable
  else if reply.status = 404 then .error (.notFound reply.text)
  else .error (.refused reply.status reply.text)

end Call

end Client

/-! ## Clients -/

structure Client where
  base : Url
  deriving DecidableEq, Repr

namespace Client

def new (url : String) : Except ClientError Client :=
  match Url.parse url with
  | .error e => .error (.invalidUrl e.message)
  | .ok base => if base.isBase then .ok ⟨base⟩ else .error (.invalidUrl base.toText)

/-- The request for a call: the segments of its path follow the path of the broker's URL. -/
def request {α : Type} (c : Client) (call : Call α) : Request :=
  ⟨call.method, c.base.extend call.segments, call.body⟩

def perform {α : Type} (c : Client) (network : Network) (call : Call α) : Except ClientError α :=
  match network (c.request call) with
  | none => .error .unreachable
  | some reply => call.result reply

end Client

end EventBroker
