import EventBroker.Text.Unsigned

/-! # Why the broker refuses a request

Each refusal has a cause; `BrokerError.message` is its wording.
-/
set_option autoImplicit false

namespace EventBroker

inductive BrokerError where
  | queueNotFound (id : String)
  | channelNotFound (id : String)
  | invalidQueueId
  | emptyScheduleRules
  | emptyChannelQueues
  | invalidBufferOptions (reason : String)
  | invalidRecurrence (reason : String)
  | capacityTooSmall
  deriving DecidableEq, Repr

namespace BrokerError

def message : BrokerError → String
  | .queueNotFound id => id ++ " queue does not exist"
  | .channelNotFound id => id ++ " channel does not exist"
  | .invalidQueueId => "queue id must not be empty"
  | .emptyScheduleRules => "schedule_rules must not be empty"
  | .emptyChannelQueues => "queues must not be empty"
  | .invalidBufferOptions reason => "invalid buffer options: " ++ reason
  | .invalidRecurrence reason => "invalid recurring options: " ++ reason
  | .capacityTooSmall => "capacity must be greater than zero"

def noOccurrence : BrokerError := .invalidRecurrence "times must be greater than zero"

def noDelay : BrokerError := .invalidRecurrence "delay must be greater than zero"

def tooManyOccurrences (count limit : Nat) : BrokerError :=
  .invalidRecurrence
    (Text.decimal count ++ " occurrences exceeds the limit of " ++ Text.decimal limit)

def noSize : BrokerError := .invalidBufferOptions "size must be greater than zero"

end BrokerError

/-- What no request survives: a state from which there is no way on. -/
inductive Crash where
  /-- A mailbox of this capacity cannot be made. -/
  | mailboxCapacity (capacity : Nat)
  | subscriberUnderflow
  deriving DecidableEq, Repr

end EventBroker
