import EventBroker.Proofs.ApiDeeds
import EventBroker.Proofs.Links
import EventBroker.Session.Run

/-! # Sessions as deeds

A step of a session is what the caller does, `callerDeeds`, and then, each time the tasks run, what
they do, `taskDeeds`. `act_replays` and `settle_replays` say that the broker changes by just these
deeds.
-/
set_option autoImplicit false

namespace EventBroker.Session

theorem bind_eq_ok_iff {α β : Type} {x : Except Crash α} {f : α → Except Crash β} {b : β} :
    x >>= f = .ok b ↔ ∃ a, x = .ok a ∧ f a = .ok b := by
  cases x with
  | error e => simp [bind, Except.bind]
  | ok a => simp [bind, Except.bind]

theorem map_eq_ok_iff {α β : Type} {x : Except Crash α} {f : α → β} {b : β} :
    x.map f = .ok b ↔ ∃ a, x = .ok a ∧ f a = b := by
  cases x with
  | error e => simp [Except.map]
  | ok a => simp [Except.map]

/-! ## What the tasks do -/

def driverRunDeeds (b : Broker) (m : Moment) : List Deed :=
  let b' := (driverRound b m).2
  b.fireDeeds m.now m ++
    if b'.wakeup then ⟨m, .wake⟩ :: { b' with wakeup := false }.fireDeeds m.now m else []

def driverDeeds (s : Session) : List Deed :=
  match s.driver with
  | none => []
  | some deadline =>
    if s.broker.wakeup || deadline ≤ s.moment.mono then driverRunDeeds s.broker s.moment else []

def reaperRunDeeds (m : Moment) (r : Reaper) (b : Broker) : List Deed :=
  match r.next with
  | some next => if next ≤ m.mono then b.reapDeeds r.timeout m else []
  | none => []

def reapersDeeds (m : Moment) : List Reaper → Broker → List Deed
  | [], _ => []
  | r :: rest, b => reaperRunDeeds m r b ++ reapersDeeds m rest (reaperRun m r b).2

def endDeeds (m : Moment) (socket : Socket) : List Deed :=
  socket.subscription.toList.map fun sub => ⟨m, .unsubscribe sub⟩

def forwardDeeds (m : Moment) (socket : Socket) (b : Broker) : List Deed :=
  match socket.subscription with
  | none => []
  | some sub =>
    ⟨m, .receiveUpTo sub none⟩ :: if b.gateway.dropped then [⟨m, .unsubscribe sub⟩] else []

def socketsDeeds (m : Moment) : List Socket → Broker → List Deed
  | [], _ => []
  | socket :: rest, b =>
    forwardDeeds m socket b ++ socketsDeeds m rest (b.replay (forwardDeeds m socket b))

/-- What all tasks do when they run. -/
def taskDeeds (s : Session) : List Deed :=
  let driven := s.runDriver
  let reaped := driven.runReapers
  s.driverDeeds ++ reapersDeeds s.moment s.reapers driven.broker ++
    socketsDeeds s.moment s.sockets reaped.broker

theorem replay_driverRunDeeds (b : Broker) (m : Moment) :
    b.replay (driverRunDeeds b m) = (driverRun b m).2 := by
  have hr : ∀ b : Broker, b.replay (b.fireDeeds m.now m) = (driverRound b m).2 := fun b =>
    b.replay_fireDeeds m.now m
  unfold driverRunDeeds driverRun
  simp only [Broker.replay_append, hr]
  split
  · rw [Broker.replay_cons]
    exact hr _
  · rfl

theorem runDriver_broker (s : Session) :
    s.runDriver.broker = s.broker.replay s.driverDeeds := by
  unfold runDriver driverDeeds
  cases s.driver with
  | none => rfl
  | some deadline =>
    simp only
    split
    · rw [replay_driverRunDeeds]
    · rfl

theorem replay_reapersDeeds {b : Broker} (h : b.Linked) (m : Moment) (reapers done : List Reaper) :
    b.replay (reapersDeeds m reapers b) = (reapers.foldl (fun p r =>
      (p.1 ++ [(reaperRun m r p.2).1], (reaperRun m r p.2).2)) (done, b)).2 := by
  induction reapers generalizing b done with
  | nil => rfl
  | cons r rest ih =>
    have hb : b.replay (reaperRunDeeds m r b) = (reaperRun m r b).2 := by
      unfold reaperRunDeeds reaperRun
      cases r.next with
      | none => rfl
      | some next =>
        simp only
        split
        · exact h.distinct.replay_reapDeeds r.timeout m
        · rfl
    have hl : (reaperRun m r b).2.Linked := hb ▸ h.replay _
    rw [reapersDeeds, Broker.replay_append, hb, ih hl (done ++ [(reaperRun m r b).1])]
    rfl

theorem runReapers_broker {s : Session} (h : s.broker.Linked) :
    s.runReapers.broker = s.broker.replay (reapersDeeds s.moment s.reapers s.broker) :=
  (replay_reapersDeeds h s.moment s.reapers []).symm

theorem toList_foldl_push (es : List DeliveredEvent) (q : Fifo Frame) :
    (es.foldl (fun q e => q.push (.event (Api.StreamEvent.ofDelivered e))) q).toList =
      q.toList ++ es.map fun e => .event (.ofDelivered e) := by
  induction es generalizing q with
  | nil => simp
  | cons e rest ih =>
    rw [List.foldl_cons, ih, Fifo.toList_push, List.map_cons, List.append_assoc]
    rfl

theorem endSocket_replays {socket socket' : Socket} {b b' : Broker} (m : Moment)
    (h : endSocket socket b = .ok (socket', b')) : b' = b.replay (endDeeds m socket) := by
  unfold endSocket at h
  unfold endDeeds
  cases hs : socket.subscription with
  | none =>
    rw [hs] at h
    cases h
    rfl
  | some sub =>
    rw [hs] at h
    obtain ⟨b₁, hu, he⟩ := map_eq_ok_iff.mp h
    cases he
    simp [Broker.perform, hu]

theorem receiveUpTo_dropped (b : Broker) (sub : Subscription) (max : Option Nat) :
    (b.receiveUpTo sub max).2.gateway.dropped = b.gateway.dropped := by
  simp only [Broker.receiveUpTo, Gateway.receiveUpTo]
  split <;> rfl

theorem forward_replays {socket socket' : Socket} {b b' : Broker} (m : Moment)
    (h : forward socket b = .ok (socket', b')) : b' = b.replay (forwardDeeds m socket b) := by
  unfold forward at h
  unfold forwardDeeds
  cases hs : socket.subscription with
  | none =>
    rw [hs] at h
    cases h
    rfl
  | some sub =>
    rw [hs] at h
    simp only [receiveUpTo_dropped] at h
    rw [Broker.replay_cons]
    split at h
    · next hd =>
      have he := endSocket_replays m h
      rw [if_pos hd, he]
      rfl
    · next hd =>
      cases h
      rw [if_neg hd]
      rfl

/-- What holds of no sockets, and carries over to one more in front, holds of all that run. -/
theorem runSockets_rec {P : List Socket → List Socket → Broker → Broker → Prop} {s s' : Session}
    (nil : ∀ b, P [] [] b b)
    (cons : ∀ {socket socket' : Socket} {rest rest' : List Socket} {b mid b' : Broker},
      forward socket b = .ok (socket', mid) → P rest rest' mid b' →
        P (socket :: rest) (socket' :: rest') b b')
    (h : s.runSockets = .ok s') : P s.sockets s'.sockets s.broker s'.broker := by
  have hf : ∀ (sockets done out : List Socket) (b b' : Broker),
      sockets.foldlM (fun p socket => forward socket p.2 >>= fun q =>
        pure (p.1 ++ [q.1], q.2)) (done, b) = Except.ok (ε := Crash) (out, b') →
      ∃ new, out = done ++ new ∧ P sockets new b b' := by
    intro sockets
    induction sockets with
    | nil =>
      rintro done out b b' ⟨⟩
      exact ⟨[], (List.append_nil _).symm, nil b⟩
    | cons socket rest ih =>
      intro done out b b' hr
      rw [List.foldlM_cons, bind_eq_ok_iff] at hr
      obtain ⟨⟨done', b₁⟩, hone, hr⟩ := hr
      obtain ⟨⟨socket', b₂⟩, hw, he⟩ := bind_eq_ok_iff.mp hone
      cases he
      obtain ⟨new, rfl, hnew⟩ := ih _ _ _ _ hr
      exact ⟨socket' :: new, by rw [List.append_assoc]; rfl, cons hw hnew⟩
  unfold runSockets at h
  obtain ⟨⟨out, b'⟩, hr, he⟩ := bind_eq_ok_iff.mp h
  cases he
  obtain ⟨new, rfl, hnew⟩ := hf _ _ _ _ _ hr
  exact hnew

theorem runSockets_replays {s s' : Session} (h : s.runSockets = .ok s') :
    s'.broker = s.broker.replay (socketsDeeds s.moment s.sockets s.broker) := by
  refine runSockets_rec
    (P := fun sockets _ b b' => b' = b.replay (socketsDeeds s.moment sockets b)) (fun _ => rfl) ?_ h
  intro socket socket' rest rest' b mid b' hw hrest
  rw [socketsDeeds, Broker.replay_append, ← forward_replays s.moment hw]
  exact hrest

theorem settle_replays {s s' : Session} (h : s.broker.Linked) (hs : s.settle = .ok s') :
    s'.broker = s.broker.replay s.taskDeeds := by
  have hd := s.runDriver_broker
  have hl : s.runDriver.broker.Linked := hd ▸ h.replay _
  have hm : s.runDriver.moment = s.moment ∧ s.runDriver.reapers = s.reapers ∧
      s.runDriver.sockets = s.sockets := by
    unfold runDriver
    split
    · exact ⟨rfl, rfl, rfl⟩
    · split <;> exact ⟨rfl, rfl, rfl⟩
  have hr := runReapers_broker hl
  have hw := runSockets_replays hs
  rw [hm.1, hm.2.1] at hr
  rw [show s.runDriver.runReapers.moment = s.runDriver.moment from rfl,
    show s.runDriver.runReapers.sockets = s.runDriver.sockets from rfl, hm.1, hm.2.2] at hw
  rw [taskDeeds, Broker.replay_append, Broker.replay_append, ← hd, ← hr]
  exact hw

/-! ## What the caller does -/

/-- What a step does before the tasks run. -/
def callerDeeds (s : Session) : Step → List Deed
  | .createQueue id => [⟨s.moment, .createQueue id⟩]
  | .deleteQueue id => s.broker.deleteQueueDeeds id s.moment
  | .submit event => s.broker.submitDeeds s.fresh.event event s.moment
  | .createChannel queues options =>
    [⟨s.moment, .createChannel s.fresh.channel queues options⟩]
  | .getChannel text =>
    (ChannelId.parse? text).toList.flatMap fun id => [⟨s.moment, .getChannel id⟩]
  | .deleteChannel text =>
    (ChannelId.parse? text).toList.flatMap fun id => s.broker.closeDeeds id s.moment
  | .dequeue text => (ChannelId.parse? text).toList.flatMap fun id => [⟨s.moment, .dequeue id⟩]
  | .reap timeout => s.broker.reapDeeds timeout s.moment
  | .fire now => s.broker.fireDeeds (now.getD s.moment.now) s.moment
  | .subscribe category => [⟨s.moment, .subscribe category⟩]
  | .receive subscriber max =>
    (s.subscription? subscriber).toList.map fun sub => ⟨s.moment, .receiveUpTo sub max⟩
  | .receiveOne subscriber =>
    (s.subscription? subscriber).toList.map fun sub => ⟨s.moment, .receive sub⟩
  | .unsubscribe subscriber =>
    (s.subscription? subscriber).toList.map fun sub => ⟨s.moment, .unsubscribe sub⟩
  | .dropBroker _ => [⟨s.moment, .drop⟩]
  | .http request =>
    (request? request false).toList.flatMap fun req => Api.deeds s.broker s.fresh s.moment req
  | .connect path =>
    (request? ⟨"GET", "ws://localhost" ++ path, none, []⟩ true).toList.flatMap fun req =>
      Api.deeds s.broker s.fresh s.moment req
  | .send index (.ping text) =>
    if text.utf8ByteSize ≤ maxPingBytes then []
    else (s.sockets[index]?).toList.flatMap (endDeeds s.moment)
  | .closeSocket index _ => (s.sockets[index]?).toList.flatMap (endDeeds s.moment)
  | _ => []

theorem onChannel_replays {α : Type} {s : Session} {text : String} {accept : α → Answer}
    {run : ChannelId → Broker.Outcome α} {deeds : ChannelId → List Deed}
    (h : ∀ id, (run id).2 = s.broker.replay (deeds id)) :
    (s.onChannel text accept run).2.broker =
      s.broker.replay ((ChannelId.parse? text).toList.flatMap deeds) := by
  unfold onChannel
  cases ChannelId.parse? text with
  | none => rfl
  | some id =>
    have hid := h id
    simp only [Option.toList_some, List.flatMap_cons, List.flatMap_nil, List.append_nil, ← hid]
    split <;> simp [*]

theorem onChannel_eq {α : Type} (s : Session) (text : String) (accept : α → Answer)
    (run : ChannelId → Broker.Outcome α) : (s.onChannel text accept run).2 =
      { s with broker := (s.onChannel text accept run).2.broker } := by
  unfold onChannel
  split
  · rfl
  · split <;> rfl

theorem onBroker_eq {α : Type} (s : Session) (accept : α → Answer)
    (outcome : Broker.Outcome α) :
    (s.onBroker accept outcome).2 = { s with broker := outcome.2 } := by
  unfold onBroker
  split <;> rfl

theorem onBroker_broker {α : Type} (s : Session) (accept : α → Answer)
    (outcome : Broker.Outcome α) : (s.onBroker accept outcome).2.broker = outcome.2 := by
  rw [onBroker_eq]

theorem method_of_request? {r : RawRequest} {upgrade : Bool} {req : Http.Request}
    (h : request? r upgrade = some req) : req.method = r.method := by
  unfold request? at h
  split at h
  · cases h
  · split at h
    · exact (congrArg Http.Request.method (Option.some.inj h)).symm
    · cases h

theorem http_replays {s s' : Session} {a : Answer} (h : s.broker.Linked) {r : RawRequest}
    (hs : s.http r = .ok (a, s')) : s'.broker = s.broker.replay (s.callerDeeds (.http r)) := by
  unfold http at hs
  simp only [callerDeeds]
  cases hq : request? r false with
  | none =>
    rw [hq] at hs
    cases hs
    rfl
  | some req =>
    rw [hq] at hs
    obtain ⟨⟨reply, b⟩, hv, he⟩ := bind_eq_ok_iff.mp hs
    have hb := Api.serve_replays h.distinct hv
    simp only [Option.toList_some, List.flatMap_cons, List.flatMap_nil, List.append_nil, ← hb]
    cases reply <;> cases he <;> rfl

theorem connect_replays {s s' : Session} {a : Answer} (h : s.broker.Linked) {path : String}
    (hs : s.connect path = .ok (a, s')) :
    s'.broker = s.broker.replay (s.callerDeeds (.connect path)) := by
  unfold connect at hs
  simp only [callerDeeds]
  cases hq : request? ⟨"GET", "ws://localhost" ++ path, none, []⟩ true with
  | none =>
    rw [hq] at hs
    cases hs
    rfl
  | some req =>
    rw [hq] at hs
    obtain ⟨⟨reply, b⟩, hv, he⟩ := bind_eq_ok_iff.mp hs
    have hb := Api.serve_replays h.distinct hv
    simp only [Option.toList_some, List.flatMap_cons, List.flatMap_nil, List.append_nil, ← hb]
    cases reply <;> cases he <;> rfl

theorem send_replays {s s' : Session} {a : Answer} {index : Nat} {message : Message}
    (hs : s.send index message = .ok (a, s')) :
    s'.broker = s.broker.replay (s.callerDeeds (.send index message)) := by
  unfold send at hs
  cases hi : s.sockets[index]? with
  | none =>
    rw [hi] at hs
    cases hs
    cases message with
    | ping text => simp [callerDeeds, hi]
    | _ => rfl
  | some socket =>
    simp only [hi] at hs
    split at hs
    · next hn =>
      cases hs
      cases message with
      | ping text => simp [callerDeeds, hi, endDeeds, Option.isNone_iff_eq_none.mp hn]
      | _ => rfl
    · split at hs
      · next text =>
        simp only [callerDeeds]
        split at hs
        · next hb =>
          cases hs
          rw [if_pos hb]
          rfl
        · next hb =>
          obtain ⟨⟨socket', b⟩, he, hr⟩ := map_eq_ok_iff.mp hs
          cases hr
          rw [if_neg hb, hi]
          simpa [setSocket] using endSocket_replays s.moment he
      · cases hs
        rfl
      · cases hs
        rfl

theorem closeSocket_replays {s s' : Session} {a : Answer} {index : Nat} {abrupt : Bool}
    (hs : s.closeSocket index abrupt = .ok (a, s')) :
    s'.broker = s.broker.replay (s.callerDeeds (.closeSocket index abrupt)) := by
  unfold closeSocket at hs
  simp only [callerDeeds]
  cases hi : s.sockets[index]? with
  | none =>
    rw [hi] at hs
    cases hs
    rfl
  | some socket =>
    rw [hi] at hs
    obtain ⟨⟨socket', b⟩, he, hr⟩ := bind_eq_ok_iff.mp hs
    cases hr
    have hb := endSocket_replays s.moment he
    have hw : ∀ sent : Bool, (if sent = true then
        { socket with sent := socket.sent.push .close } else socket).subscription =
        socket.subscription := by
      intro sent
      split <;> rfl
    simp only [endDeeds, hw] at hb
    simpa [endDeeds, setSocket] using hb

/-- What a step does while no time passes. -/
theorem act_replays {s s' : Session} {x : Step} {a : Answer} (h : s.broker.Linked)
    (hx : ∀ ms, x ≠ .advance ms) (hs : s.act x = .ok (a, s')) :
    s'.broker = s.broker.replay (s.callerDeeds x) := by
  have hb : ∀ {outcome : Answer × Session}, Except.ok (ε := Crash) outcome = .ok (a, s') →
      s'.broker = outcome.2.broker := by
    rintro outcome ⟨⟩
    rfl
  cases x with
  | createQueue id => exact (hb hs).trans (onBroker_broker s _ _)
  | getQueue id =>
    refine (hb hs).trans ((onBroker_broker s _ _).trans ?_)
    unfold Broker.getQueue
    split <;> rfl
  | deleteQueue id =>
    rw [callerDeeds, Broker.replay_deleteQueueDeeds]
    exact (hb hs).trans (onBroker_broker s _ _)
  | submit event =>
    rw [callerDeeds, Broker.replay_submitDeeds]
    exact (hb hs).trans (onBroker_broker s _ _)
  | createChannel queues options => exact (hb hs).trans (onBroker_broker s _ _)
  | getChannel text => exact (hb hs).trans (onChannel_replays fun _ => rfl)
  | deleteChannel text =>
    exact (hb hs).trans
      (onChannel_replays fun id => (h.distinct.replay_closeDeeds id s.moment).symm)
  | dequeue text => exact (hb hs).trans (onChannel_replays fun _ => rfl)
  | reap timeout =>
    rw [callerDeeds, h.distinct.replay_reapDeeds]
    exact hb hs
  | fire now =>
    rw [callerDeeds, Broker.replay_fireDeeds]
    exact hb hs
  | advance ms => exact absurd rfl (hx ms)
  | subscribe category =>
    obtain ⟨⟨sub, b⟩, hc, he⟩ := map_eq_ok_iff.mp hs
    cases he
    simp [callerDeeds, Broker.perform, hc]
  | receive subscriber max =>
    refine (hb hs).trans ?_
    simp only [callerDeeds]
    cases s.subscription? subscriber <;> rfl
  | receiveOne subscriber =>
    refine (hb hs).trans ?_
    simp only [callerDeeds]
    cases s.subscription? subscriber <;> rfl
  | unsubscribe subscriber =>
    simp only [act] at hs
    simp only [callerDeeds]
    cases hu : s.subscription? subscriber with
    | none =>
      rw [hu] at hs
      exact hb hs
    | some sub =>
      rw [hu] at hs
      obtain ⟨b, hc, he⟩ := map_eq_ok_iff.mp hs
      cases he
      simp [Broker.perform, hc]
  | dropBroker limit =>
    refine (hb hs).trans ?_
    simp only [dropBroker, driverEnd]
    split <;> rfl
  | http request => exact http_replays h hs
  | connect path => exact connect_replays h hs
  | readSocket socket =>
    refine (hb hs).trans ?_
    unfold readSocket
    split <;> rfl
  | send socket message => exact send_replays hs
  | closeSocket socket abrupt => exact closeSocket_replays hs
  | _ => exact hb hs

end EventBroker.Session
