import EventBroker.Error
import EventBroker.Saturating
import EventBroker.Uuid

/-! # Events and their schedules

An event carries a payload and rules. A rule names a queue and a time at which the event fires into
it, once or repeatedly. `ScheduleRule.fireTimes` lists the times of a rule.
-/
set_option autoImplicit false

namespace EventBroker

abbrev Payload := List UInt8

/-- Fires `times` times, `delay` milliseconds apart. -/
structure Recurrence where
  times : Nat
  delay : Nat
  deriving DecidableEq, Repr

structure ScheduleRule where
  queue : String
  /-- The first fire time, in milliseconds since the epoch. A past time means at once. -/
  fireAt : Nat
  recurrence : Option Recurrence
  deriving DecidableEq, Repr

structure NewEvent where
  data : Payload
  category : Option String
  rules : List ScheduleRule
  deriving DecidableEq

/-- An accepted event; all its occurrences share it. -/
structure ScheduledEvent where
  id : EventId
  data : Payload
  category : Option String
  deriving DecidableEq

structure DeliveredEvent where
  eventId : EventId
  queue : String
  /-- What subscribers are matched by: the event's category, or the queue if it has none. -/
  category : String
  data : Payload
  fireAt : Nat
  /-- The time at which it fired. -/
  firedAt : Nat
  deriving DecidableEq

def maxOccurrences : Nat := 10000

namespace ScheduleRule

/-- How often the rule fires, if it is sound. -/
def occurrences (rule : ScheduleRule) : Except BrokerError Nat :=
  match rule.recurrence with
  | none => .ok 1
  | some r =>
    if r.times = 0 then .error .noOccurrence
    else if 1 < r.times ∧ r.delay = 0 then .error .noDelay
    else .ok r.times

/-- The times at which the rule fires, none beyond the largest word. -/
def fireTimes (rule : ScheduleRule) : List Nat :=
  match rule.recurrence with
  | none => [rule.fireAt]
  | some r =>
    (List.range r.times).map fun k => Saturating.add rule.fireAt (Saturating.mul k r.delay)

end ScheduleRule

/-- The number of occurrences of all rules together; fails at the first unsound rule. -/
def totalOccurrences (rules : List ScheduleRule) : Except BrokerError Nat :=
  rules.foldlM (fun sum rule => (rule.occurrences).map (Saturating.add sum)) 0

end EventBroker
