import EventBroker.Session.Basic

/-! # What runs beside the caller

After every step, and after every millisecond while there is something that waits for time to pass,
the tasks run until none has anything left to do: first the driver, then the reapers, then the
sockets, which forward what has been pushed to them.
-/
set_option autoImplicit false

namespace EventBroker.Session

/-! ## The driver -/

/-- Fires what is due and says when to wake up again. -/
def driverRound (b : Broker) (m : Moment) : Nat × Broker :=
  let b := (b.fireDue m.now m).2
  (m.mono + b.sleepFor m.now, b)

/-- Lets the driver run until it sleeps. If something was armed before it fell asleep, it wakes up
at once, one time: a round arms nothing. -/
def driverRun (b : Broker) (m : Moment) : Nat × Broker :=
  let (deadline, b) := driverRound b m
  if b.wakeup then driverRound { b with wakeup := false } m else (deadline, b)

/-- Wakes the driver if its time has come or something was armed. -/
def runDriver (s : Session) : Session :=
  match s.driver with
  | none => s
  | some deadline =>
    if s.broker.wakeup || deadline ≤ s.moment.mono then
      let (deadline, broker) := driverRun s.broker s.moment
      { s with driver := some deadline, broker }
    else s

/-! ## The reapers -/

def reaperRun (m : Moment) (r : Reaper) (b : Broker) : Reaper × Broker :=
  match r.next with
  | some next =>
    if next ≤ m.mono then ({ r with next := some (next + r.interval) }, (b.reap r.timeout m).2)
    else (r, b)
  | none => (r, b)

def runReapers (s : Session) : Session :=
  let (reapers, broker) := s.reapers.foldl
    (fun (reapers, b) r =>
      let (r, b) := reaperRun s.moment r b
      (reapers ++ [r], b))
    (([] : List Reaper), s.broker)
  { s with reapers, broker }

/-! ## The sockets -/

def endSocket (socket : Socket) (b : Broker) : Except Crash (Socket × Broker) :=
  match socket.subscription with
  | none => .ok (socket, b)
  | some subscription =>
    (b.unsubscribe subscription).map fun b =>
      ({ socket with subscription := none, sent := socket.sent.push .over }, b)

/-- Sends everything that waits for a socket. The connection ends when the broker is gone. -/
def forward (socket : Socket) (b : Broker) : Except Crash (Socket × Broker) :=
  match socket.subscription with
  | none => .ok (socket, b)
  | some subscription =>
    let (events, b) := b.receiveUpTo subscription none
    let socket := { socket with
      sent := events.foldl (fun q e => q.push (.event (Api.StreamEvent.ofDelivered e)))
        socket.sent }
    if b.gateway.dropped then endSocket socket b else .ok (socket, b)

def runSockets (s : Session) : Except Crash Session := do
  let (sockets, broker) ← s.sockets.foldlM
    (fun (sockets, b) socket => do
      let (socket, b) ← forward socket b
      return (sockets ++ [socket], b))
    (([] : List Socket), s.broker)
  return { s with sockets, broker }

/-! ## All tasks -/

/-- Lets every task run until it has nothing left to do. -/
def settle (s : Session) : Except Crash Session := runSockets (runReapers (runDriver s))

/-- Whether a task waits for time to pass. -/
def isWaiting (s : Session) : Bool := s.driver.isSome || !s.reapers.isEmpty

/-- Lets milliseconds pass one after another, with all tasks running after each. -/
def pass : Nat → Session → Except Crash Session
  | 0, s => .ok s
  | n + 1, s =>
    match settle { s with moment := s.moment.after 1 } with
    | .error e => .error e
    | .ok s => pass n s

/-- Lets time pass: in one go if nothing waits for it. -/
def advance (ms : Nat) (s : Session) : Except Crash Session :=
  if s.isWaiting then pass ms s else .ok { s with moment := s.moment.after ms }

end EventBroker.Session
