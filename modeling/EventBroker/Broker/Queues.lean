import EventBroker.Broker.Basic
import EventBroker.Text.Blank

/-! # The broker's queues

Deleting a queue happens in two steps: `retire` takes it out of the registry, and `cancelFor` takes
the rules that aim at it off the agenda.
-/
set_option autoImplicit false

namespace EventBroker.Broker

/-- Registers a queue; `false` if it was registered already. -/
def createQueue (b : Broker) (id : String) : Outcome Bool :=
  if Text.isBlankText id then (.error .invalidQueueId, b)
  else
    match b.registry.find? id with
    | some _ => (.ok false, b)
    | none => (.ok true, { b with registry := b.registry.append id })

def listQueues (b : Broker) : List QueueInfo := b.registry.registered.map Queue.info

def getQueue (b : Broker) (id : String) : Outcome QueueInfo :=
  match b.registry.find? id with
  | some q => (.ok q.info, b)
  | none => (.error (.queueNotFound id), b)

/-- Ends the registered incarnation of a name and gives its serial number. -/
def retire (b : Broker) (id : String) : Outcome Nat :=
  match b.registry.find? id with
  | some q => (.ok q.serial, b.updateQueue q.serial Queue.retire)
  | none => (.error (.queueNotFound id), b)

def cancelFor (b : Broker) (target : Nat) : Broker :=
  let (cancelled, agenda) := b.agenda.cancel target
  { b with agenda }.updateQueue target (·.subPending cancelled)

/-- Deletes a queue with everything that was armed for it. Channels attached to it stay. -/
def deleteQueue (b : Broker) (id : String) : Outcome Unit :=
  match b.retire id with
  | (.ok target, b) => (.ok (), b.cancelFor target)
  | (.error e, b) => (.error e, b)

end EventBroker.Broker
