import EventBroker.Event

/-! # The agenda

The rules that are armed and have not fired, earliest first; rules for the same time are in the
order in which they were armed. Arming sorts new rules in, popping cuts off what is due, and
cancelling takes out what aims at one queue.
-/
set_option autoImplicit false

namespace EventBroker

/-- One occurrence waiting for its time. Its target is the serial number of a queue. -/
structure ArmedRule where
  fireAt : Nat
  /-- The position in the order of arming. -/
  order : Nat
  target : Nat
  event : ScheduledEvent
  deriving DecidableEq

namespace ArmedRule

/-- Whether a rule fires no later than another. -/
def le (a b : ArmedRule) : Bool :=
  a.fireAt < b.fireAt || (a.fireAt == b.fireAt && a.order ≤ b.order)

end ArmedRule

/-- The armed rules, in firing order, and how many have ever been armed. -/
structure Agenda where
  rules : List ArmedRule
  nextOrder : Nat

namespace Agenda

def empty : Agenda := ⟨[], 0⟩

/-- The rules of one event, numbered from `order` on, for targets and times in the order given. -/
def number (event : ScheduledEvent) (order : Nat) (occurrences : List (Nat × Nat)) :
    List ArmedRule :=
  (occurrences.zipIdx order).map fun ((target, fireAt), k) => ⟨fireAt, k, target, event⟩

def arm (a : Agenda) (event : ScheduledEvent) (occurrences : List (Nat × Nat)) : Agenda :=
  ⟨(a.rules ++ number event a.nextOrder occurrences).mergeSort ArmedRule.le,
    a.nextOrder + occurrences.length⟩

def popDue (a : Agenda) (now : Nat) : List ArmedRule × Agenda :=
  let due := a.rules.takeWhile fun r => r.fireAt ≤ now
  (due, { a with rules := a.rules.drop due.length })

def cancel (a : Agenda) (target : Nat) : Nat × Agenda :=
  let kept := a.rules.filter fun r => r.target != target
  (a.rules.length - kept.length, { a with rules := kept })

def sleepFor (a : Agenda) (maxTick now : Nat) : Nat :=
  match a.rules with
  | [] => maxTick
  | r :: _ => min (r.fireAt - now) maxTick

end Agenda

end EventBroker
