import EventBroker.Session.Tasks

/-! # Steps of a session

What each step does, and how a session takes a list of steps.
-/
set_option autoImplicit false

namespace EventBroker.Session

/-! ## Channels by their text -/

def onChannel {α : Type} (s : Session) (text : String) (accept : α → Answer)
    (run : ChannelId → Broker.Outcome α) : Answer × Session :=
  match ChannelId.parse? text with
  | none => (.invalidId text, s)
  | some id =>
    match run id with
    | (.ok a, broker) => (accept a, { s with broker })
    | (.error e, broker) => (.refused e, { s with broker })

def onBroker {α : Type} (s : Session) (accept : α → Answer) (outcome : Broker.Outcome α) :
    Answer × Session :=
  match outcome with
  | (.ok a, broker) => (accept a, { s with broker })
  | (.error e, broker) => (.refused e, { s with broker })

/-! ## Subscribers -/

def subscription? (s : Session) (subscriber : Nat) : Option Subscription :=
  (s.subscriptions[subscriber]?).join

def receive (s : Session) (sub : Subscription) (max : Option Nat) : Answer × Session :=
  let (events, broker) := s.broker.receiveUpTo sub max
  let ending : DrainEnd :=
    if max = some events.length then .full
    else if broker.gateway.dropped then .disconnected
    else .empty
  (.drained events ending, { s with broker })

/-! ## Requests -/

/-- The request that a raw one makes, unless its request line or its content type is malformed. -/
def request? (r : RawRequest) (upgrade : Bool) : Option Http.Request :=
  match Http.pathOf? r.target with
  | none => none
  | some path =>
    if Http.isMethod r.method && r.contentType.all Http.isHeaderText then
      some ⟨r.method, path, r.contentType, r.body, upgrade⟩
    else none

def http (s : Session) (r : RawRequest) : Except Crash (Answer × Session) :=
  match request? r false with
  | none => .ok (.invalidRequest, s)
  | some req => do
    match ← Api.serve s.broker s.fresh s.moment req with
    | (.response response, broker) => return (.response response, { s with broker })
    | (.stream _, broker) => return (.response (.empty 101), { s with broker })

def connect (s : Session) (path : String) : Except Crash (Answer × Session) :=
  match request? ⟨"GET", "ws://localhost" ++ path, none, []⟩ true with
  | none => .ok (.invalidRequest, s)
  | some req => do
    match ← Api.serve s.broker s.fresh s.moment req with
    | (.response response, broker) => return (.handshakeFailed response, { s with broker })
    | (.stream subscription, broker) =>
      return (.connected s.sockets.length,
        { s with broker, sockets := s.sockets ++ [⟨some subscription, .empty⟩] })

/-! ## Sockets -/

def setSocket (s : Session) (index : Nat) (socket : Socket) : Session :=
  { s with sockets := s.sockets.set index socket }

def readSocket (s : Session) (index : Nat) : Answer × Session :=
  match s.sockets[index]? with
  | none => (.unknown, s)
  | some socket =>
    (.frames socket.sent.toList, s.setSocket index { socket with sent := .empty })

def maxPingBytes : Nat := 125

/-- Sends a message to a socket, which answers pings and ignores the rest. A ping that carries too
much breaks the rules of the connection and ends it. -/
def send (s : Session) (index : Nat) (message : Message) : Except Crash (Answer × Session) :=
  match s.sockets[index]? with
  | none => .ok (.unknown, s)
  | some socket =>
    if socket.subscription.isNone then .ok (.sent false, s)
    else
      match message with
      | .ping text =>
        if text.utf8ByteSize ≤ maxPingBytes then
          let socket := { socket with sent := socket.sent.push (.pong text) }
          .ok (.sent true, s.setSocket index socket)
        else
          (endSocket socket s.broker).map fun (socket, broker) =>
            (.sent true, { s with broker }.setSocket index socket)
      | .text _ | .binary _ => .ok (.sent true, s)

/-- Closes a socket. A farewell is answered before the connection ends; after an abrupt end nothing
can be read any more. -/
def closeSocket (s : Session) (index : Nat) (abrupt : Bool) : Except Crash (Answer × Session) :=
  match s.sockets[index]? with
  | none => .ok (.unknown, s)
  | some socket => do
    let farewell := socket.subscription.isSome && !abrupt
    let socket := if farewell then { socket with sent := socket.sent.push .close } else socket
    let (socket, broker) ← endSocket socket s.broker
    let socket := if abrupt then { socket with sent := .empty } else socket
    return (.closed, { s with broker }.setSocket index socket)

/-! ## The end of the broker -/

/-- How long the driver takes to notice that the broker is gone: it does at its next waking. -/
def driverEnd (s : Session) (limit : Nat) : Answer × Session :=
  match s.driver with
  | none => (.dropped, s)
  | some deadline =>
    let wait := deadline - s.moment.mono
    let after := min wait limit
    (.driverEnded (wait ≤ limit) after, { s with driver := none, moment := s.moment.after after })

/-- Deletes all channels, stops the reapers and drops the broker. -/
def dropBroker (s : Session) (limit : Nat) : Answer × Session :=
  let broker := (s.broker.channels.foldl Broker.closeChannel s.broker).drop
  driverEnd { s with broker, reapers := [] } limit

/-! ## Steps -/

/-- What a step does before the tasks run. -/
def act (s : Session) : Step → Except Crash (Answer × Session)
  | .createQueue id => .ok (s.onBroker .created (s.broker.createQueue id))
  | .listQueues => .ok (.queues s.broker.listQueues, s)
  | .getQueue id => .ok (s.onBroker .queue (s.broker.getQueue id))
  | .deleteQueue id => .ok (s.onBroker (fun _ => .deleted) (s.broker.deleteQueue id))
  | .submit event => .ok (s.onBroker .accepted (s.broker.submit s.fresh.event event))
  | .createChannel queues options =>
    .ok (s.onBroker .channelCreated
      (s.broker.createChannel s.fresh.channel queues options s.moment))
  | .listChannels => .ok (.channels s.broker.listChannels, s)
  | .getChannel text => .ok (s.onChannel text .channel fun id => s.broker.getChannel id s.moment)
  | .deleteChannel text => .ok (s.onChannel text (fun _ => .deleted) s.broker.deleteChannel)
  | .dequeue text => .ok (s.onChannel text .events fun id => s.broker.dequeue id s.moment)
  | .reap timeout =>
    let (ids, broker) := s.broker.reap timeout s.moment
    .ok (.channels ids, { s with broker })
  | .fire now =>
    let (count, broker) := s.broker.fireDue (now.getD s.moment.now) s.moment
    .ok (.number count, { s with broker })
  | .now => .ok (.number s.moment.now, s)
  | .advance ms => (s.advance ms).map fun s => (.number s.moment.now, s)
  | .setWall ms =>
    let s := { s with moment := s.moment.withWall ms }
    .ok (.number s.moment.now, s)
  | .subscribe category =>
    (s.broker.subscribe category).map fun (sub, broker) =>
      (.subscribed s.subscriptions.length,
        { s with broker, subscriptions := s.subscriptions ++ [some sub] })
  | .receive subscriber max =>
    .ok (match s.subscription? subscriber with
      | none => (.unknown, s)
      | some sub => s.receive sub max)
  | .receiveOne subscriber =>
    .ok (match s.subscription? subscriber with
      | none => (.unknown, s)
      | some sub =>
        let (receipt, broker) := s.broker.receive sub
        (.received receipt, { s with broker }))
  | .unsubscribe subscriber =>
    match s.subscription? subscriber with
    | none => .ok (.unknown, s)
    | some sub =>
      (s.broker.unsubscribe sub).map fun broker =>
        (.dropped, { s with broker, subscriptions := s.subscriptions.set subscriber none })
  | .subscriberCount => .ok (.number s.broker.subscriberCount, s)
  | .metrics => .ok (.metrics s.broker.metrics, s)
  | .startDriver => .ok (.started, { s with driver := some s.moment.mono })
  | .stopDriver => .ok (.stopped, { s with driver := none })
  | .startReaper timeout interval =>
    let next := if interval = 0 then none else some s.moment.mono
    .ok (.started, { s with reapers := s.reapers ++ [⟨timeout, interval, next⟩] })
  | .dropBroker limit => .ok (s.dropBroker limit)
  | .http request => s.http request
  | .connect path => s.connect path
  | .readSocket socket => .ok (s.readSocket socket)
  | .send socket message => s.send socket message
  | .closeSocket socket abrupt => s.closeSocket socket abrupt

/-- Takes a step and lets the tasks run. -/
def step (s : Session) (x : Step) : Except Crash (Answer × Session) := do
  let (answer, s) ← s.act x
  let s ← s.settle
  return (answer, s)

def run : Session → List Step → Except Crash (List Answer × Session)
  | s, [] => .ok ([], s)
  | s, x :: rest => do
    let (answer, s) ← s.step x
    let (answers, s) ← s.run rest
    return (answer :: answers, s)

end EventBroker.Session
