import EventBroker.Event
import EventBroker.Fifo
import EventBroker.Metrics
import EventBroker.Moment

/-! # Channels

A channel buffers what fires into its queues until someone asks for it, and then hands over
everything at once. It is ready when its buffer is full enough or its oldest event has waited long
enough; readiness is only told, never acted on. A full buffer takes no more events.
-/
set_option autoImplicit false

namespace EventBroker

/-- When a channel counts as ready: its oldest event is `time` milliseconds old, or it holds `size`
events. -/
structure BufferOptions where
  time : Nat
  size : Nat
  deriving DecidableEq, Repr

structure ChannelInfo where
  id : ChannelId
  queues : List String
  options : BufferOptions
  buffered : Nat
  ready : Bool
  deriving DecidableEq

structure Channel where
  serial : Nat
  id : ChannelId
  queues : List String
  options : BufferOptions
  capacity : Nat
  events : Fifo DeliveredEvent
  /-- The monotonic time at which the oldest event arrived. -/
  firstArrival : Option Nat
  /-- The time of day at which it was last read or asked about. -/
  lastTouched : Nat
  /-- The queues it is attached to, each once; none once it is closed. -/
  sources : Option (List Nat)

namespace Channel

def new (serial : Nat) (id : ChannelId) (queues : List String) (options : BufferOptions)
    (capacity now : Nat) : Channel :=
  ⟨serial, id, queues, options, capacity, .empty, none, now, some []⟩

/-- What a dequeue at this time would be due to. -/
def trigger (c : Channel) (mono : Nat) : FlushTrigger :=
  if c.options.size ≤ c.events.size then .size
  else
    match c.firstArrival with
    | some first => if c.options.time ≤ mono - first then .time else .poll
    | none => .poll

/-- Appends an event; none if the buffer is full. -/
def offer? (c : Channel) (mono : Nat) (event : DeliveredEvent) : Option Channel :=
  if c.capacity ≤ c.events.size then none
  else some { c with events := c.events.push event, firstArrival := c.firstArrival.or (some mono) }

/-- Whether there is something to read for a reason other than being asked. -/
def ready (c : Channel) (mono : Nat) : Bool := !c.events.isEmpty && c.trigger mono != .poll

def info (c : Channel) (mono : Nat) : ChannelInfo :=
  ⟨c.id, c.queues, c.options, c.events.size, c.ready mono⟩

def drain (c : Channel) : Channel := { c with events := .empty, firstArrival := none }

def touch (c : Channel) (now : Nat) : Channel := { c with lastTouched := now }

/-- Whether nobody has touched it for some time. A clock that was set back makes no channel idle. -/
def isIdle (c : Channel) (now timeout : Nat) : Bool := timeout ≤ now - c.lastTouched

/-- Adds sources, each once; gives the channel and the sources that are new to it. A closed channel
takes none. -/
def link (c : Channel) (targets : List Nat) : Channel × List Nat :=
  match c.sources with
  | none => (c, [])
  | some known =>
    let sources := targets.foldl (fun acc t => if t ∈ acc then acc else acc ++ [t]) known
    ({ c with sources := some sources }, sources.drop known.length)

def close (c : Channel) : Channel := { c.drain with sources := none }

end Channel

end EventBroker
