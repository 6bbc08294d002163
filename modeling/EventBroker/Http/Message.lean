import EventBroker.Api.Responses

/-! # Requests and responses

What a request carries once its request line and headers have been read, and what is sent back.
-/
set_option autoImplicit false

namespace EventBroker.Http

structure Request where
  method : String
  /-- The path as it was sent, percent-coded. -/
  path : String
  contentType : Option String
  body : List UInt8
  /-- Whether the request asks for a WebSocket, with all the headers that takes. -/
  upgrade : Bool

inductive Body where
  | empty
  | text (s : String)
  | json (value : Json)

structure Response where
  status : Nat
  contentType : Option String
  /-- The methods that the path would take, after a method that it does not take. -/
  allow : Option String
  body : Body

namespace Response

def empty (status : Nat) : Response := ⟨status, none, none, .empty⟩

def text (status : Nat) (s : String) : Response :=
  ⟨status, some "text/plain; charset=utf-8", none, .text s⟩

def json (status : Nat) (value : Json) : Response :=
  ⟨status, some "application/json", none, .json value⟩

def ok (value : Json) : Response := json 200 value

def withoutBody (r : Response) : Response := { r with body := .empty }

/-! ## Failures -/

def notFound : Response := empty 404

def invalid (message : String) : Response :=
  json 400 (Api.ErrorResponse.toJson ⟨"validation_error", message, none⟩)

def internal (message : String) : Response :=
  json 500 (Api.ErrorResponse.toJson ⟨"internal", message, none⟩)

def ofError (e : BrokerError) : Response :=
  match e with
  | .queueNotFound _ | .channelNotFound _ => text 404 e.message
  | .invalidQueueId | .emptyScheduleRules | .emptyChannelQueues | .invalidBufferOptions _
  | .invalidRecurrence _ => invalid e.message
  | .capacityTooSmall => internal "broker misconfigured"

/-- The answer to a refusal on the queue routes, which say nothing about a queue that is not there.
-/
def ofQueueError (e : BrokerError) : Response :=
  match e with
  | .queueNotFound _ => notFound
  | e => ofError e

end Response

end EventBroker.Http
