import EventBroker.Agenda
import EventBroker.Channel
import EventBroker.Gateway
import EventBroker.Queue

/-! # The broker

The broker's state and how a new one is made. Its operations are in the modules beside this one:

- `Broker.Queues`: registering, listing and deleting queues;
- `Broker.Channels`: creating, reading, deleting and reaping channels;
- `Broker.Events`: submitting events and firing what is due;
- `Broker.Streams`: subscribing to categories.

Every operation that can be refused gives its answer beside the state it leaves behind.
-/
set_option autoImplicit false

namespace EventBroker

/-- How large a broker's parts may grow and how long its driver sleeps. -/
structure BrokerSettings where
  /-- The most messages waiting for one subscriber. -/
  subscriberCapacity : Nat := 1024
  /-- The most events waiting in one channel. -/
  channelCapacity : Nat := 65536
  /-- The longest sleep between two looks at the clock, in milliseconds. -/
  maxTick : Nat := 250
  deriving DecidableEq, Repr

structure Broker where
  registry : Registry
  /-- The live channels in the order in which they were created. -/
  channels : List Channel
  /-- The serial number of the next channel. -/
  nextChannel : Nat
  agenda : Agenda
  gateway : Gateway DeliveredEvent
  channelCapacity : Nat
  /-- The longest sleep of the driver. -/
  maxTick : Nat
  /-- Whether something was armed since the driver last went to sleep. -/
  wakeup : Bool
  metrics : Metrics

namespace Broker

/-- What an operation answers, and the broker it leaves behind. -/
abbrev Outcome (α : Type) := Except BrokerError α × Broker

/-- A broker with nothing in it. No capacity may be zero; a longest sleep of zero counts as one. -/
def new (s : BrokerSettings) : Except BrokerError Broker :=
  if s.subscriberCapacity = 0 then .error .capacityTooSmall
  else if s.channelCapacity = 0 then .error .capacityTooSmall
  else .ok {
    registry := .empty
    channels := []
    nextChannel := 0
    agenda := .empty
    gateway := .new s.subscriberCapacity
    channelCapacity := s.channelCapacity
    maxTick := max s.maxTick 1
    wakeup := false
    metrics := .empty }

def channel? (b : Broker) (id : ChannelId) : Option Channel := b.channels.find? (·.id == id)

def updateChannel (b : Broker) (serial : Nat) (f : Channel → Channel) : Broker :=
  { b with channels := b.channels.map fun c => if c.serial = serial then f c else c }

def updateQueue (b : Broker) (serial : Nat) (f : Queue → Queue) : Broker :=
  { b with registry := b.registry.update serial f }

/-- Drops the broker: its channels are closed, nothing is armed, and its subscribers are
disconnected. -/
def drop (b : Broker) : Broker :=
  { b with channels := [], agenda := .empty, gateway := b.gateway.drop }

end Broker

end EventBroker
