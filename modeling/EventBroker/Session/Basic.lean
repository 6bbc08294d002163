import EventBroker.Api.Service
import EventBroker.Http.Target

/-! # Sessions

A session is a broker in virtual time with everything that runs beside it: the driver that fires
what is due, the reapers that close idle channels, the subscribers, and the sockets that forward
events to callers. A caller takes one `Step` after another and gets an `Answer` to each.
-/
set_option autoImplicit false

namespace EventBroker

/-- The identifiers that are handed out, by how many have been handed out before. -/
structure IdSupply where
  channel : Nat → ChannelId
  event : Nat → EventId

/-- Closes the channels that nobody has touched for some time, again and again. -/
structure Reaper where
  /-- In milliseconds, a 64-bit number. -/
  timeout : Nat
  interval : Nat
  /-- The monotonic time of the next round; a reaper without an interval has none. -/
  next : Option Nat
  deriving DecidableEq, Repr

inductive Frame where
  | event (e : Api.StreamEvent)
  | pong (text : String)
  | close
  | over
  deriving DecidableEq, Repr

structure Socket where
  /-- The subscription that is forwarded, as long as the connection lasts. -/
  subscription : Option Subscription
  /-- What has been sent and not been read. -/
  sent : Fifo Frame

structure Session where
  supply : IdSupply
  broker : Broker
  moment : Moment
  /-- The monotonic time at which the driver wakes up, if there is a driver. -/
  driver : Option Nat
  reapers : List Reaper
  /-- The subscriptions in the order in which they were made; none where one was given up. -/
  subscriptions : List (Option Subscription)
  /-- The sockets in the order in which they were connected. -/
  sockets : List Socket

namespace Session

def new (supply : IdSupply) (broker : Broker) (moment : Moment) : Session :=
  ⟨supply, broker, moment, none, [], [], []⟩

def fresh (s : Session) : Api.FreshIds :=
  ⟨s.supply.channel s.broker.nextChannel, s.supply.event s.broker.metrics.eventsScheduled⟩

end Session

inductive Message where
  | text (s : String)
  | binary (bytes : List UInt8)
  | ping (text : String)
  deriving DecidableEq

/-- A request as it is sent, before anything of it has been checked. -/
structure RawRequest where
  method : String
  target : String
  contentType : Option String
  body : List UInt8

inductive Step where
  | createQueue (id : String)
  | listQueues
  | getQueue (id : String)
  | deleteQueue (id : String)
  | submit (event : NewEvent)
  | createChannel (queues : List String) (options : BufferOptions)
  | listChannels
  | getChannel (id : String)
  | deleteChannel (id : String)
  | dequeue (id : String)
  /-- Reaps what is idle for some milliseconds, a 64-bit number. -/
  | reap (timeout : Nat)
  /-- Fires what is due at a time, or at the time of the wall clock. -/
  | fire (now : Option Nat)
  | now
  | advance (ms : Nat)
  | setWall (ms : Int)
  | subscribe (category : String)
  /-- Takes what waits for a subscriber, all of it or at most `max` events. -/
  | receive (subscriber : Nat) (max : Option Nat)
  | receiveOne (subscriber : Nat)
  | unsubscribe (subscriber : Nat)
  | subscriberCount
  | metrics
  | startDriver
  | stopDriver
  | startReaper (timeout interval : Nat)
  /-- Drops the broker, and waits at most `limit` milliseconds for the driver to end. -/
  | dropBroker (limit : Nat)
  | http (request : RawRequest)
  | connect (path : String)
  | readSocket (socket : Nat)
  | send (socket : Nat) (message : Message)
  /-- Closes a socket, abruptly if no farewell is exchanged. -/
  | closeSocket (socket : Nat) (abrupt : Bool)

inductive DrainEnd where
  | empty
  | disconnected
  | full
  deriving DecidableEq, Repr

inductive Answer where
  | refused (e : BrokerError)
  | invalidId (text : String)
  | invalidRequest
  /-- The step names a subscriber or a socket that there is not. -/
  | unknown
  | created (isNew : Bool)
  | queues (qs : List QueueInfo)
  | queue (q : QueueInfo)
  | deleted
  | accepted (id : EventId)
  | channelCreated (id : ChannelId)
  | channels (ids : List ChannelId)
  | channel (c : ChannelInfo)
  | events (es : List DeliveredEvent)
  | number (n : Nat)
  | subscribed (subscriber : Nat)
  | drained (es : List DeliveredEvent) (ending : DrainEnd)
  | received (r : Receipt DeliveredEvent)
  | metrics (m : Metrics)
  | started
  | stopped
  | dropped
  /-- Whether the driver has ended, and after how many milliseconds. -/
  | driverEnded (inTime : Bool) (after : Nat)
  | response (r : Http.Response)
  | connected (socket : Nat)
  | handshakeFailed (r : Http.Response)
  | frames (fs : List Frame)
  | sent (arrived : Bool)
  | closed

end EventBroker
