import EventBroker.Event

/-! # Queues

A queue is a name and a place where fired rules land; it keeps no events. Each time a name is
registered a new incarnation begins, with a serial number of its own. A retired incarnation stays on
record: rules that were taken out to fire may still aim at it, and then go nowhere.

The channels attached to an incarnation are its watchers. What deliveries go by is the published
list, which follows the watchers at every change.
-/
set_option autoImplicit false

namespace EventBroker

structure QueueInfo where
  id : String
  pending : Nat
  /-- Rules that have fired into it. -/
  delivered : Nat
  deriving DecidableEq, Repr

/-- One incarnation of a queue. Channels are known by their serial numbers. -/
structure Queue where
  serial : Nat
  id : String
  retired : Bool
  pending : Nat
  delivered : Nat
  watchers : List Nat
  published : List Nat
  deriving DecidableEq, Repr

namespace Queue

def new (serial : Nat) (id : String) : Queue := ⟨serial, id, false, 0, 0, [], []⟩

def info (q : Queue) : QueueInfo := ⟨q.id, q.pending, q.delivered⟩

def addPending (q : Queue) (n : Nat) : Queue := { q with pending := q.pending + n }

/-- Takes off what has fired or was cancelled, stopping at zero. -/
def subPending (q : Queue) (n : Nat) : Queue := { q with pending := q.pending - n }

def publish (q : Queue) : Queue := { q with published := q.watchers }

def attach (q : Queue) (channel : Nat) : Queue :=
  publish { q with
    watchers := if channel ∈ q.watchers then q.watchers else q.watchers ++ [channel] }

def detach (q : Queue) (channel : Nat) : Queue :=
  if channel ∈ q.watchers then publish { q with watchers := q.watchers.filter (· != channel) }
  else q

/-- Ends the incarnation: it is no longer registered and watched by nobody. -/
def retire (q : Queue) : Queue := publish { q with retired := true, watchers := [] }

end Queue

/-- All incarnations ever registered, oldest first; the serial number is the position. -/
structure Registry where
  queues : List Queue

namespace Registry

def empty : Registry := ⟨[]⟩

def find? (r : Registry) (id : String) : Option Queue :=
  r.queues.find? fun q => !q.retired && q.id == id

def get? (r : Registry) (serial : Nat) : Option Queue := r.queues[serial]?

def registered (r : Registry) : List Queue := r.queues.filter (!·.retired)

def update (r : Registry) (serial : Nat) (f : Queue → Queue) : Registry :=
  ⟨r.queues.modify serial f⟩

def append (r : Registry) (id : String) : Registry :=
  ⟨r.queues ++ [Queue.new r.queues.length id]⟩

/-- The serial numbers of the registered incarnations of some names, or the first name that is not
registered. -/
def resolve (r : Registry) (ids : List String) : Except BrokerError (List Nat) :=
  ids.mapM fun id =>
    match r.find? id with
    | some q => .ok q.serial
    | none => .error (.queueNotFound id)

end Registry

end EventBroker
