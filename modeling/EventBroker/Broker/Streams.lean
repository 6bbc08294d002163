import EventBroker.Broker.Basic

/-! # The broker's live streams

A subscriber gets every event of its category that fires from then on. The gauge of subscribers
follows each one that comes or leaves.
-/
set_option autoImplicit false

namespace EventBroker.Broker

/-- Puts a gateway in place and sets the gauge to its number of subscribers. -/
def withGateway (b : Broker) (gateway : Gateway DeliveredEvent) : Broker :=
  { b with gateway, metrics := { b.metrics with subscribersGauge := some gateway.subscribers } }

def subscribe (b : Broker) (category : String) : Except Crash (Subscription × Broker) :=
  (b.gateway.subscribe category).map fun (s, gateway) => (s, b.withGateway gateway)

def unsubscribe (b : Broker) (s : Subscription) : Except Crash Broker :=
  (b.gateway.unsubscribe s).map fun (registered, gateway) =>
    if registered then b.withGateway gateway else { b with gateway }

def subscriberCount (b : Broker) : Nat := b.gateway.subscribers

def receive (b : Broker) (s : Subscription) : Receipt DeliveredEvent × Broker :=
  let (receipt, gateway) := b.gateway.receive s
  (receipt, { b with gateway })

def receiveUpTo (b : Broker) (s : Subscription) (max : Option Nat) :
    List DeliveredEvent × Broker :=
  let (events, gateway) := b.gateway.receiveUpTo s max
  (events, { b with gateway })

end EventBroker.Broker
