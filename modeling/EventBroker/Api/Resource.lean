import EventBroker.Text.Percent

/-! # Resources

Which paths there are and which methods each of them takes. A path is compared segment by segment as
it was sent; a name is decoded later, and one at the end of a path is not empty.
-/
set_option autoImplicit false

namespace EventBroker.Api

/-- What a path leads to. Names are percent-coded as they were sent. -/
inductive Resource where
  | health
  | connections
  | description
  | queues
  | queue (id : String)
  | events
  | channels
  | channel (id : String)
  | channelEvents (id : String)
  | stream (category : String)
  deriving DecidableEq, Repr

inductive Verb where
  | get
  | post
  | delete
  deriving DecidableEq, Repr

namespace Verb

/-- The methods for a verb, as they are listed for callers. Where `GET` can be used, so can `HEAD`.
-/
def methods : Verb → List String
  | .get => ["GET", "HEAD"]
  | .post => ["POST"]
  | .delete => ["DELETE"]

end Verb

namespace Resource

def splitSlashes : List Char → List (List Char)
  | [] => [[]]
  | c :: rest =>
    if c = '/' then [] :: splitSlashes rest
    else
      match splitSlashes rest with
      | first :: others => (c :: first) :: others
      | [] => [[c]]

/-- The segments of a path, which begins with a slash. -/
def segments? (path : String) : Option (List String) :=
  match path.toList with
  | '/' :: rest => some ((splitSlashes rest).map String.ofList)
  | _ => none

/-- A resource whose name ends its path. The name must not be empty. -/
def named (resource : String → Resource) (name : String) : Option Resource :=
  if name = "" then none else some (resource name)

def ofSegments? : List String → Option Resource
  | ["health"] => some .health
  | ["connections"] => some .connections
  | ["openapi.json"] => some .description
  | ["queues"] => some .queues
  | ["queues", id] => named .queue id
  | ["events"] => some .events
  | ["channels"] => some .channels
  | ["channels", id] => named .channel id
  | ["channels", id, "events"] => some (.channelEvents id)
  | ["ws", "events", category] => named .stream category
  | _ => none

def ofPath? (path : String) : Option Resource := (segments? path).bind ofSegments?

def verbs : Resource → List Verb
  | .health | .connections | .description | .channelEvents _ | .stream _ => [.get]
  | .queues | .channels => [.get, .post]
  | .queue _ | .channel _ => [.get, .delete]
  | .events => [.post]

/-- What a method does with a resource; none if the resource does not take it. -/
def verb? (resource : Resource) (method : String) : Option Verb :=
  resource.verbs.find? fun verb => verb.methods.contains method

def allow (resource : Resource) : String :=
  ",".intercalate (resource.verbs.flatMap Verb.methods)

end Resource

end EventBroker.Api
