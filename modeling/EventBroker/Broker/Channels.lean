import EventBroker.Broker.Basic

/-! # The broker's channels

A channel is attached to the incarnations that its queue names mean when it is created, and stays
attached to them until it is closed or they are retired.
-/
set_option autoImplicit false

namespace EventBroker.Broker

/-- Attaches a channel to incarnations, once to each; a closed channel is attached to none. -/
def attach (b : Broker) (c : Channel) (targets : List Nat) : Channel × Broker :=
  let (c, fresh) := c.link targets
  (c, fresh.foldl (fun b target => b.updateQueue target (·.attach c.serial)) b)

def createChannel (b : Broker) (id : ChannelId) (queues : List String) (options : BufferOptions)
    (m : Moment) : Outcome ChannelId :=
  if queues.isEmpty then (.error .emptyChannelQueues, b)
  else if options.size = 0 then (.error .noSize, b)
  else
    match b.registry.resolve queues with
    | .error e => (.error e, b)
    | .ok targets =>
      let c := Channel.new b.nextChannel id queues options b.channelCapacity m.now
      let (c, b) := { b with nextChannel := b.nextChannel + 1 }.attach c targets
      (.ok id, { b with channels := b.channels ++ [c] })

def listChannels (b : Broker) : List ChannelId := b.channels.map (·.id)

/-- Tells about a channel and touches it. -/
def getChannel (b : Broker) (id : ChannelId) (m : Moment) : Outcome ChannelInfo :=
  match b.channel? id with
  | none => (.error (.channelNotFound id.toText), b)
  | some c => (.ok (c.info m.mono), b.updateChannel c.serial (·.touch m.now))

/-- Takes a channel out of the broker: it leaves its sources, and its events are gone. -/
def closeChannel (b : Broker) (c : Channel) : Broker :=
  let b := (c.sources.getD []).foldl (fun b target => b.updateQueue target (·.detach c.serial)) b
  { b with
    channels := b.channels.filter (·.serial != c.serial)
    metrics := b.metrics.release c.events.size }

def deleteChannel (b : Broker) (id : ChannelId) : Outcome Unit :=
  match b.channel? id with
  | none => (.error (.channelNotFound id.toText), b)
  | some c => (.ok (), b.closeChannel c)

/-- Takes everything out of a channel, oldest first, and touches it. -/
def dequeue (b : Broker) (id : ChannelId) (m : Moment) : Outcome (List DeliveredEvent) :=
  match b.channel? id with
  | none => (.error (.channelNotFound id.toText), b)
  | some c =>
    let b := b.updateChannel c.serial fun c => (c.touch m.now).drain
    (.ok c.events.toList,
      { b with metrics := b.metrics.dequeue (c.trigger m.mono) c.events.size })

/-- Closes the channels that nobody has touched for some time, and names them. A timeout is a 64-bit
number of milliseconds: neither a configuration nor a caller gives a larger one. -/
def reap (b : Broker) (timeout : Nat) (m : Moment) : List ChannelId × Broker :=
  let idle := b.channels.filter (·.isIdle m.now timeout)
  (idle.map (·.id), idle.foldl closeChannel b)

end EventBroker.Broker
