import EventBroker.Broker.Basic

/-! # Submitting and firing

Submitting happens in two steps: `targets` looks up the queues that the rules name, and `arm` puts
every occurrence on the agenda. Firing what is due happens in steps too: `popDue` takes the rules
off the agenda, and each is then fired on its own. A rule whose queue was retired in between goes
nowhere.
-/
set_option autoImplicit false

namespace EventBroker.Broker

/-! ## Submitting -/

/-- The incarnations that the rules of an event aim at, if the event is sound. -/
def targets (b : Broker) (event : NewEvent) : Except BrokerError (List Nat) :=
  if event.rules.isEmpty then .error .emptyScheduleRules
  else
    match totalOccurrences event.rules with
    | .error e => .error e
    | .ok count =>
      if maxOccurrences < count then .error (.tooManyOccurrences count maxOccurrences)
      else b.registry.resolve (event.rules.map (·.queue))

/-- The occurrences of rules with their targets: rule after rule, each in the order of time. -/
def expand (rules : List ScheduleRule) (targets : List Nat) : List (Nat × Nat) :=
  (rules.zip targets).flatMap fun (rule, target) => rule.fireTimes.map ((target, ·))

def arm (b : Broker) (id : EventId) (event : NewEvent) (targets : List Nat) : Broker :=
  let occurrences := expand event.rules targets
  let registry :=
    occurrences.foldl (fun r (target, _) => r.update target (·.addPending 1)) b.registry
  { b with
    registry
    agenda := b.agenda.arm ⟨id, event.data, event.category⟩ occurrences
    wakeup := true
    metrics := { b.metrics with eventsScheduled := b.metrics.eventsScheduled + 1 } }

/-- Accepts an event under a fresh identifier and arms all its rules, or none. -/
def submit (b : Broker) (id : EventId) (event : NewEvent) : Outcome EventId :=
  match b.targets event with
  | .error e => (.error e, b)
  | .ok targets => (.ok id, b.arm id event targets)

/-! ## Firing -/

def delivery (rule : ArmedRule) (queue : String) (firedAt : Nat) : DeliveredEvent :=
  { eventId := rule.event.id
    queue
    category := rule.event.category.getD queue
    data := rule.event.data
    fireAt := rule.fireAt
    firedAt }

/-- Offers an event to a channel; a full one loses it. -/
def offerTo (m : Moment) (event : DeliveredEvent) (b : Broker) (watcher : Nat) : Broker :=
  match b.channels.find? (·.serial == watcher) with
  | none => b
  | some c =>
    match c.offer? m.mono event with
    | some c' =>
      { b.updateChannel watcher (fun _ => c') with metrics := b.metrics.bufferOne }
    | none =>
      { b with
        metrics := { b.metrics with overflowDropped := b.metrics.overflowDropped + 1 } }

def push (b : Broker) (event : DeliveredEvent) : Broker :=
  let (tally, gateway) := b.gateway.publish event.category event
  { b with
    gateway
    metrics := { b.metrics with
      streamPushed := b.metrics.streamPushed + tally.taken
      streamDropped := b.metrics.streamDropped + tally.lost } }

def deliver (b : Broker) (rule : ArmedRule) (queue : Queue) (m : Moment) : Broker :=
  let event := delivery rule queue.id m.now
  let b := b.updateQueue queue.serial fun q => { q with delivered := q.delivered + 1 }
  let b := (queue.published.foldl (offerTo m event) b).push event
  { b with metrics := b.metrics.fire (m.now - rule.fireAt) }

/-- Fires a rule that was taken off the agenda. If its queue has been retired, it is only counted.
-/
def fire (b : Broker) (rule : ArmedRule) (m : Moment) : Broker :=
  let b := b.updateQueue rule.target (·.subPending 1)
  match b.registry.get? rule.target with
  | none => b
  | some queue =>
    if queue.retired then
      { b with metrics := { b.metrics with rulesDropped := b.metrics.rulesDropped + 1 } }
    else b.deliver rule queue m

def popDue (b : Broker) (now : Nat) : List ArmedRule × Broker :=
  let (due, agenda) := b.agenda.popDue now
  (due, { b with agenda })

/-- Fires everything that is due at a time, earliest first, and counts it. -/
def fireDue (b : Broker) (now : Nat) (m : Moment) : Nat × Broker :=
  let (due, b) := b.popDue now
  (due.length, due.foldl (fun b rule => b.fire rule m) b)

def sleepFor (b : Broker) (now : Nat) : Nat := b.agenda.sleepFor b.maxTick now

end EventBroker.Broker
