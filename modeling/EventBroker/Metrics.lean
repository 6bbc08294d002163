import EventBroker.Decimal.Binary64

/-! # What the broker reports about itself

Counters only grow, gauges hold the last value set, and a histogram keeps how many values it has
seen and between which they lie. A gauge or histogram that has never been touched has no value.
-/
set_option autoImplicit false

namespace EventBroker

/-- Why a channel was ripe when its buffer was taken: it was full, it was old, or it was neither and
just asked for. -/
inductive FlushTrigger where
  | size
  | time
  | poll
  deriving DecidableEq, Repr

structure Histogram where
  count : Nat
  min : Nat
  max : Nat
  deriving DecidableEq, Repr

/-- Takes in one value. Values are kept as binary numbers, so a long one is rounded. -/
def Histogram.record (h : Option Histogram) (value : Nat) : Histogram :=
  let v := Decimal.Binary64.roundNat value
  match h with
  | none => ⟨1, v, v⟩
  | some h => ⟨h.count + 1, Nat.min h.min v, Nat.max h.max v⟩

structure Metrics where
  eventsScheduled : Nat
  rulesFired : Nat
  rulesDropped : Nat
  overflowDropped : Nat
  dequeuedBySize : Nat
  dequeuedByTime : Nat
  dequeuedByPoll : Nat
  streamPushed : Nat
  streamDropped : Nat
  /-- How many events all channels hold together. -/
  buffered : Nat
  /-- The gauge of buffered events. -/
  bufferedGauge : Option Nat
  subscribersGauge : Option Nat
  lateness : Option Histogram
  deriving DecidableEq, Repr

namespace Metrics

def empty : Metrics := ⟨0, 0, 0, 0, 0, 0, 0, 0, 0, 0, none, none, none⟩

def bufferOne (m : Metrics) : Metrics :=
  { m with buffered := m.buffered + 1, bufferedGauge := some (m.buffered + 1) }

/-- Events have left the buffers; nothing happens for none. -/
def release (m : Metrics) (n : Nat) : Metrics :=
  if n = 0 then m
  else { m with buffered := m.buffered - n, bufferedGauge := some (m.buffered - n) }

def dequeue (m : Metrics) (trigger : FlushTrigger) (n : Nat) : Metrics :=
  if n = 0 then m
  else
    let m := m.release n
    match trigger with
    | .size => { m with dequeuedBySize := m.dequeuedBySize + n }
    | .time => { m with dequeuedByTime := m.dequeuedByTime + n }
    | .poll => { m with dequeuedByPoll := m.dequeuedByPoll + n }

def fire (m : Metrics) (late : Nat) : Metrics :=
  { m with rulesFired := m.rulesFired + 1, lateness := some (Histogram.record m.lateness late) }

end Metrics

end EventBroker
