import EventBroker.Proofs.Arming
import EventBroker.Proofs.SessionRuns

/-! # What steps and tasks leave alone

`act_acted` says what a step that takes no time does to a session besides changing its broker, and
`settle_settled` what the tasks do to it after the driver has run. Callers and tasks drop the broker
only in the step that says so, and only the driver takes note of what was armed.
-/
set_option autoImplicit false

namespace EventBroker

/-- Whether a step is taken on the broker itself or on a clock. The others start tasks, drop the
broker or go through HTTP. -/
def Step.isFacade : Step → Bool
  | .startDriver | .stopDriver | .startReaper _ _ | .dropBroker _ => false
  | .http _ | .connect _ | .readSocket _ | .send _ _ | .closeSocket _ _ => false
  | _ => true

/-- Whether a step drops the broker. -/
def Step.isDrop : Step → Bool
  | .dropBroker _ => true
  | _ => false

/-- Whether a step sets the wall clock. -/
def Step.setsWall : Step → Bool
  | .setWall _ => true
  | _ => false

/-- Whether a step starts the driver, stops it, or ends it with the broker. -/
def Step.isDriver : Step → Bool
  | .startDriver | .stopDriver | .dropBroker _ => true
  | _ => false

/-- Whether a step starts a reaper. -/
def Step.startsReaper : Step → Bool
  | .startReaper _ _ => true
  | _ => false

/-- Whether a step is taken for a subscriber or a socket. -/
def Step.isStreaming : Step → Bool
  | .subscribe _ | .receive _ _ | .receiveOne _ | .unsubscribe _ => true
  | .connect _ | .send _ _ | .closeSocket _ _ => true
  | _ => false

theorem Step.isDrop_of_isDriver {x : Step} (h : x.isDriver = false) : x.isDrop = false := by
  cases x with
  | dropBroker limit => cases h
  | _ => rfl

/-- Whether a step may change the list of the callers' subscriptions. -/
def Step.movesSubscriptions : Step → Bool
  | .subscribe _ | .unsubscribe _ => true
  | _ => false

theorem Step.startsReaper_of_isFacade {x : Step} (h : x.isFacade = true) :
    x.startsReaper = false := by
  cases x with
  | startReaper timeout interval => cases h
  | _ => rfl

theorem Step.isDriver_of_isFacade {x : Step} (h : x.isFacade = true) : x.isDriver = false := by
  cases x with
  | startDriver | stopDriver | dropBroker limit => cases h
  | _ => rfl

namespace Session

/-! ## Steps that take no time -/

/-- What a step that neither takes time nor drops the broker leaves alone. -/
structure Acted (x : Step) (s s' : Session) : Prop where
  supply : s'.supply = s.supply
  mono : s'.moment.mono = s.moment.mono
  moment : x.setsWall = false → s'.moment = s.moment
  driver : x.isDriver = false → s'.driver = s.driver
  reapers : x.startsReaper = false → s'.reapers = s.reapers
  sockets : x.isFacade = true → s'.sockets = s.sockets
  subscriptions : x.movesSubscriptions = false → s'.subscriptions = s.subscriptions
  forwarded : x.isStreaming = false →
    s'.sockets.map (·.subscription) = s.sockets.map (·.subscription)

variable {s s' : Session} {x : Step} {a : Answer}

theorem Acted.of_broker (x : Step) (s : Session) (broker : Broker)
    (subscriptions : List (Option Subscription))
    (hs : x.movesSubscriptions = false → subscriptions = s.subscriptions) :
    Acted x s { s with broker, subscriptions } :=
  ⟨rfl, rfl, fun _ => rfl, fun _ => rfl, fun _ => rfl, fun _ => rfl, hs, fun _ => rfl⟩

/-- A step that is not taken on the broker itself may change the sockets. -/
theorem Acted.of_sockets (hx : x.isFacade = false) (s : Session) (broker : Broker)
    (sockets : List Socket) (hs : x.isStreaming = false →
      sockets.map (·.subscription) = s.sockets.map (·.subscription)) :
    Acted x s { s with broker, sockets } :=
  ⟨rfl, rfl, fun _ => rfl, fun _ => rfl, fun _ => rfl,
    fun h => Bool.noConfusion (hx.symm.trans h), fun _ => rfl, hs⟩

theorem connect_acted {path : String} (ha : s.connect path = .ok (a, s')) :
    Acted (.connect path) s s' := by
  unfold connect at ha
  split at ha
  · cases ha
    exact .of_broker _ s _ _ fun _ => rfl
  · obtain ⟨⟨reply, b⟩, -, he⟩ := bind_eq_ok_iff.mp ha
    cases reply <;> cases he <;> exact .of_sockets rfl s _ _ fun h => Bool.noConfusion h

theorem readSocket_acted (s : Session) (index : Nat) :
    Acted (.readSocket index) s (s.readSocket index).2 := by
  rw [readSocket]
  split
  · exact .of_broker _ s _ _ fun _ => rfl
  · next socket hi =>
    refine .of_sockets rfl s _ _ fun _ => ?_
    obtain ⟨hlt, rfl⟩ := List.getElem?_eq_some_iff.mp hi
    have hlt' : index < (s.sockets.map (·.subscription)).length := by simpa using hlt
    rw [List.map_set, ← List.set_getElem_self hlt']
    simp

theorem send_acted {index : Nat} {message : Message} (ha : s.send index message = .ok (a, s')) :
    Acted (.send index message) s s' := by
  unfold send at ha
  split at ha
  · cases ha
    exact .of_broker _ s _ _ fun _ => rfl
  split at ha
  · cases ha
    exact .of_broker _ s _ _ fun _ => rfl
  split at ha
  · split at ha
    · cases ha
      exact .of_sockets rfl s _ _ fun h => Bool.noConfusion h
    · obtain ⟨_, -, he⟩ := map_eq_ok_iff.mp ha
      cases he
      exact .of_sockets rfl s _ _ fun h => Bool.noConfusion h
  · cases ha
    exact .of_broker _ s _ _ fun _ => rfl
  · cases ha
    exact .of_broker _ s _ _ fun _ => rfl

theorem closeSocket_acted {index : Nat} {abrupt : Bool}
    (ha : s.closeSocket index abrupt = .ok (a, s')) :
    Acted (.closeSocket index abrupt) s s' := by
  unfold closeSocket at ha
  split at ha
  · cases ha
    exact .of_broker _ s _ _ fun _ => rfl
  · obtain ⟨_, -, he⟩ := bind_eq_ok_iff.mp ha
    cases he
    exact .of_sockets rfl s _ _ fun h => Bool.noConfusion h

theorem act_acted (ht : ∀ ms, x ≠ .advance ms) (hd : x.isDrop = false)
    (ha : s.act x = .ok (a, s')) : Acted x s s' := by
  have hout : ∀ {outcome : Answer × Session}, Except.ok (ε := Crash) outcome = .ok (a, s') →
      s' = outcome.2 := by
    rintro outcome ⟨⟩
    rfl
  cases x with
  | createQueue | getQueue | deleteQueue | submit | createChannel =>
    rw [hout ha, onBroker_eq]
    exact .of_broker _ s _ _ fun _ => rfl
  | getChannel | deleteChannel | dequeue =>
    rw [hout ha, onChannel_eq]
    exact .of_broker _ s _ _ fun _ => rfl
  | listQueues | listChannels | reap | fire | now | subscriberCount | metrics =>
    rw [hout ha]
    exact .of_broker _ s _ _ fun _ => rfl
  | setWall ms =>
    rw [hout ha]
    exact ⟨rfl, rfl, fun h => Bool.noConfusion h, fun _ => rfl, fun _ => rfl, fun _ => rfl,
      fun _ => rfl, fun _ => rfl⟩
  | advance ms => exact absurd rfl (ht ms)
  | subscribe category =>
    obtain ⟨_, -, he⟩ := map_eq_ok_iff.mp ha
    cases he
    exact .of_broker _ s _ _ fun h => Bool.noConfusion h
  | receive subscriber | receiveOne subscriber =>
    rw [hout ha]
    split <;> exact .of_broker _ s _ _ fun _ => rfl
  | unsubscribe subscriber =>
    simp only [Session.act] at ha
    split at ha
    · rw [hout ha]
      exact .of_broker _ s _ _ fun _ => rfl
    · obtain ⟨_, -, he⟩ := map_eq_ok_iff.mp ha
      cases he
      exact .of_broker _ s _ _ fun h => Bool.noConfusion h
  | startDriver | stopDriver =>
    rw [hout ha]
    exact ⟨rfl, rfl, fun _ => rfl, fun h => Bool.noConfusion h, fun _ => rfl, fun _ => rfl,
      fun _ => rfl, fun _ => rfl⟩
  | startReaper timeout interval =>
    rw [hout ha]
    exact ⟨rfl, rfl, fun _ => rfl, fun _ => rfl, fun h => Bool.noConfusion h, fun _ => rfl,
      fun _ => rfl, fun _ => rfl⟩
  | dropBroker limit => cases hd
  | http request =>
    simp only [Session.act, http] at ha
    split at ha
    · cases ha
      exact .of_broker _ s _ _ fun _ => rfl
    · obtain ⟨⟨reply, b⟩, -, he⟩ := bind_eq_ok_iff.mp ha
      cases reply <;> cases he <;> exact .of_broker _ s _ _ fun _ => rfl
  | connect path => exact connect_acted ha
  | readSocket index =>
    rw [hout ha]
    exact readSocket_acted s index
  | send index message => exact send_acted ha
  | closeSocket index abrupt => exact closeSocket_acted ha

/-! ## Deeds of callers and tasks -/

/-- Requests are served, and one that may be upgraded can open a stream. -/
theorem resourceDeeds_kind {b : Broker} {fresh : Api.FreshIds} {m : Moment} {req : Http.Request}
    {resource : Api.Resource} {verb : Api.Verb} {d : Deed}
    (hd : d ∈ Api.resourceDeeds b fresh m req resource verb) : d.action.isService = true ∨
      (∃ raw, resource = .stream raw ∧ verb = .get) ∧ req.upgrade = true ∧
        ∃ category, d.action = .subscribe category := by
  unfold Api.resourceDeeds at hd
  split at hd
  · obtain ⟨body, -, hd⟩ := List.mem_flatMap.mp hd
    rw [List.mem_singleton.mp hd]
    exact .inl rfl
  · obtain ⟨id, -, hd⟩ := List.mem_flatMap.mp hd
    exact .inl (Broker.deleteQueueDeeds_service hd)
  · obtain ⟨body, -, hd⟩ := List.mem_flatMap.mp hd
    exact .inl (Broker.submitDeeds_service hd)
  · obtain ⟨body, -, hd⟩ := List.mem_flatMap.mp hd
    rw [List.mem_singleton.mp hd]
    exact .inl rfl
  · obtain ⟨id, -, hd⟩ := List.mem_flatMap.mp hd
    rw [List.mem_singleton.mp hd]
    exact .inl rfl
  · obtain ⟨id, -, hd⟩ := List.mem_flatMap.mp hd
    exact .inl (Broker.closeDeeds_service hd)
  · obtain ⟨id, -, hd⟩ := List.mem_flatMap.mp hd
    rw [List.mem_singleton.mp hd]
    exact .inl rfl
  · split at hd
    · next raw hup =>
      obtain ⟨category, -, hd⟩ := List.mem_flatMap.mp hd
      rw [List.mem_singleton.mp hd]
      exact .inr ⟨⟨raw, rfl, rfl⟩, hup.2, category, rfl⟩
    · cases hd
  · cases hd

theorem apiDeeds_kind {b : Broker} {fresh : Api.FreshIds} {m : Moment} {req : Http.Request}
    {d : Deed} (hd : d ∈ Api.deeds b fresh m req) : d.action.isService = true ∨
      req.upgrade = true ∧ ∃ category, d.action = .subscribe category := by
  unfold Api.deeds at hd
  split at hd
  · cases hd
  split at hd
  · cases hd
  exact (resourceDeeds_kind hd).imp_right And.right

theorem upgrade_of_request? {r : RawRequest} {upgrade : Bool} {req : Http.Request}
    (h : request? r upgrade = some req) : req.upgrade = upgrade := by
  unfold request? at h
  split at h
  · cases h
  split at h
  · cases h
    rfl
  · cases h

theorem endDeeds_eq {m : Moment} {socket : Socket} {d : Deed} (hd : d ∈ endDeeds m socket) :
    ∃ sub, socket.subscription = some sub ∧ d = ⟨m, .unsubscribe sub⟩ := by
  obtain ⟨sub, hs, rfl⟩ := List.mem_map.mp hd
  exact ⟨sub, Option.mem_toList.mp hs, rfl⟩

/-- What a caller does is firing, or done for a subscriber, or served. -/
theorem callerDeeds_kind {d : Deed} (hx : x.isDrop = false) (hd : d ∈ s.callerDeeds x) :
    d.action.isService = true ∨ (∃ now, x = .fire now) ∧ d.action.isFiring = true ∨
      x.isStreaming = true ∧ d.action.isStreaming = true := by
  cases x with
  | createQueue | createChannel =>
    rw [List.mem_singleton.mp hd]
    exact .inl rfl
  | subscribe =>
    rw [List.mem_singleton.mp hd]
    exact .inr (.inr ⟨rfl, rfl⟩)
  | deleteQueue id => exact .inl (Broker.deleteQueueDeeds_service hd)
  | submit event => exact .inl (Broker.submitDeeds_service hd)
  | getChannel text | dequeue text =>
    obtain ⟨id, -, hd⟩ := List.mem_flatMap.mp hd
    rw [List.mem_singleton.mp hd]
    exact .inl rfl
  | deleteChannel text =>
    obtain ⟨id, -, hd⟩ := List.mem_flatMap.mp hd
    exact .inl (Broker.closeDeeds_service hd)
  | reap timeout => exact .inl (Broker.reapDeeds_service hd)
  | fire now => exact .inr (.inl ⟨⟨now, rfl⟩, Broker.fireDeeds_firing hd⟩)
  | receive | receiveOne | unsubscribe =>
    obtain ⟨sub, -, rfl⟩ := List.mem_map.mp hd
    exact .inr (.inr ⟨rfl, rfl⟩)
  | dropBroker limit => cases hx
  | http request =>
    obtain ⟨req, hreq, hd⟩ := List.mem_flatMap.mp hd
    rcases apiDeeds_kind hd with hd | ⟨hup, -⟩
    · exact .inl hd
    · cases (upgrade_of_request? (Option.mem_toList.mp hreq)).symm.trans hup
  | connect path =>
    obtain ⟨req, -, hd⟩ := List.mem_flatMap.mp hd
    refine (apiDeeds_kind hd).imp_right fun ⟨_, category, ha⟩ => .inr ⟨rfl, ?_⟩
    rw [ha]
    rfl
  | send index message =>
    cases message with
    | ping text =>
      simp only [callerDeeds] at hd
      split at hd
      · cases hd
      · obtain ⟨socket, -, hd⟩ := List.mem_flatMap.mp hd
        obtain ⟨sub, -, rfl⟩ := endDeeds_eq hd
        exact .inr (.inr ⟨rfl, rfl⟩)
    | text | binary => cases hd
  | closeSocket index abrupt =>
    obtain ⟨socket, -, hd⟩ := List.mem_flatMap.mp hd
    obtain ⟨sub, -, rfl⟩ := endDeeds_eq hd
    exact .inr (.inr ⟨rfl, rfl⟩)
  | listQueues | getQueue | listChannels | now | advance | setWall | subscriberCount | metrics
  | startDriver | stopDriver | startReaper | readSocket => cases hd

theorem callerDeeds_ordinary {d : Deed} (hx : x.isDrop = false) (hd : d ∈ s.callerDeeds x) :
    d.action.isOrdinary = true := by
  rcases callerDeeds_kind hx hd with hd | ⟨-, hd⟩ | ⟨-, hd⟩
  · exact Action.isOrdinary_of_isService hd
  · cases ha : d.action with
    | popDue now | fire rule => rfl
    | _ => rw [ha] at hd; cases hd
  · cases ha : d.action with
    | subscribe | unsubscribe | receive | receiveUpTo => rfl
    | _ => rw [ha] at hd; cases hd

theorem driverRunDeeds_kind {b : Broker} {m : Moment} {d : Deed} (hd : d ∈ driverRunDeeds b m) :
    d.action.isFiring = true ∨ d.action = .wake := by
  rw [driverRunDeeds, List.mem_append] at hd
  rcases hd with hd | hd
  · exact .inl (Broker.fireDeeds_firing hd)
  · split at hd
    · rcases List.mem_cons.mp hd with rfl | hd
      · exact .inr rfl
      · exact .inl (Broker.fireDeeds_firing hd)
    · cases hd

/-- The driver only fires, and takes note of what was armed. -/
theorem driverDeeds_kind {d : Deed} (hd : d ∈ s.driverDeeds) :
    d.action.isFiring = true ∨ d.action = .wake := by
  unfold driverDeeds at hd
  split at hd
  · cases hd
  split at hd
  · exact driverRunDeeds_kind hd
  · cases hd

/-! ## The tasks after the driver -/

/-- What the tasks leave alone once the driver has run. -/
structure Settled (s s' : Session) : Prop where
  moment : s'.moment = s.moment
  driver : s'.driver = s.runDriver.driver
  agenda : s'.broker.agenda = s.runDriver.broker.agenda
  wakeup : s'.broker.wakeup = s.runDriver.broker.wakeup

theorem runDriver_moment (s : Session) : s.runDriver.moment = s.moment := by
  unfold runDriver
  split
  · rfl
  · split <;> rfl

/-- Reapers only close channels. -/
theorem reapersDeeds_kind {m : Moment} {reapers : List Reaper} {b : Broker} {d : Deed}
    (hd : d ∈ reapersDeeds m reapers b) : ∃ serial, d = ⟨m, .close serial⟩ := by
  induction reapers generalizing b with
  | nil => cases hd
  | cons r rest ih =>
    rw [reapersDeeds, List.mem_append] at hd
    rcases hd with hd | hd
    · unfold reaperRunDeeds at hd
      split at hd
      · split at hd
        · obtain ⟨c, -, rfl⟩ := List.mem_map.mp hd
          exact ⟨_, rfl⟩
        · cases hd
      · cases hd
    · exact ih hd

/-- Sockets only receive what is forwarded, and end. -/
theorem socketsDeeds_kind {m : Moment} {sockets : List Socket} {b : Broker} {d : Deed}
    (hd : d ∈ socketsDeeds m sockets b) : ∃ socket ∈ sockets, ∃ sub,
      socket.subscription = some sub ∧
      (d = ⟨m, .receiveUpTo sub none⟩ ∨ d = ⟨m, .unsubscribe sub⟩) := by
  induction sockets generalizing b with
  | nil => cases hd
  | cons socket rest ih =>
    rw [socketsDeeds, List.mem_append] at hd
    rcases hd with hd | hd
    · unfold forwardDeeds at hd
      split at hd
      · cases hd
      · next sub hs =>
        refine ⟨socket, List.mem_cons_self, sub, hs, ?_⟩
        rcases List.mem_cons.mp hd with rfl | hd
        · exact .inl rfl
        · split at hd
          · exact .inr (List.mem_singleton.mp hd)
          · cases hd
    · obtain ⟨socket', hm, h⟩ := ih hd
      exact ⟨socket', List.mem_cons_of_mem _ hm, h⟩

theorem socketsDeeds_spare {m : Moment} {sockets : List Socket} {b : Broker} {d : Deed}
    (hd : d ∈ socketsDeeds m sockets b) :
    d.action.sparesAgenda = true ∧ d.action.sparesWakeup = true := by
  obtain ⟨socket, -, sub, -, rfl | rfl⟩ := socketsDeeds_kind hd <;> exact ⟨rfl, rfl⟩

theorem reapersDeeds_spare {m : Moment} {reapers : List Reaper} {b : Broker} {d : Deed}
    (hd : d ∈ reapersDeeds m reapers b) :
    d.action.sparesAgenda = true ∧ d.action.sparesWakeup = true := by
  obtain ⟨serial, rfl⟩ := reapersDeeds_kind hd
  exact ⟨rfl, rfl⟩

theorem taskDeeds_drop {d : Deed} (hd : d ∈ s.taskDeeds) : d.action.isDrop = false := by
  simp only [taskDeeds, List.mem_append] at hd
  rcases hd with (hd | hd) | hd
  · cases ha : d.action with
    | drop => rcases driverDeeds_kind hd with h | h <;> (rw [ha] at h; cases h)
    | _ => rfl
  · obtain ⟨serial, rfl⟩ := reapersDeeds_kind hd
    rfl
  · obtain ⟨socket, -, sub, -, rfl | rfl⟩ := socketsDeeds_kind hd <;> rfl

theorem stepDeeds_drop {d : Deed} (hx : x.isDrop = false) (hd : d ∈ s.stepDeeds x) :
    d.action.isDrop = false := by
  rw [stepDeeds, List.mem_append, List.mem_flatMap] at hd
  rcases hd with hd | ⟨found, -, hd⟩
  · exact Action.isDrop_of_isOrdinary (callerDeeds_ordinary hx hd)
  · exact taskDeeds_drop hd

theorem deeds_drop {steps : List Step} {d : Deed} (hx : ∀ x ∈ steps, x.isDrop = false)
    (hd : d ∈ s.deeds steps) : d.action.isDrop = false := by
  induction steps generalizing s with
  | nil => cases hd
  | cons x rest ih =>
    rw [List.forall_mem_cons] at hx
    rw [deeds, List.mem_append] at hd
    rcases hd with hd | hd
    · exact stepDeeds_drop hx.1 hd
    · split at hd
      · exact ih hx.2 hd
      · cases hd

/-- As long as no step drops the broker, a run leads to successors. -/
theorem run_succeeds {steps : List Step} {answers : List Answer} (h : s.broker.Linked)
    (hx : ∀ x ∈ steps, x.isDrop = false) (hr : s.run steps = .ok (answers, s')) :
    Broker.Succeeds s.broker s'.broker := by
  rw [run_replays h hr]
  exact s.broker.replay_succeeds fun d hd => deeds_drop hx hd

theorem runSockets_eq (h : s.runSockets = .ok s') :
    s' = { s with sockets := s'.sockets, broker := s'.broker } := by
  obtain ⟨⟨out, b⟩, -, he⟩ := bind_eq_ok_iff.mp h
  cases he
  rfl

theorem settle_settled (h : s.broker.Linked) (hs : s.settle = .ok s') : Settled s s' := by
  have hd := s.runDriver_broker
  have hr := runReapers_broker (s := s.runDriver) (hd ▸ h.replay _)
  have hw := runSockets_replays hs
  have he := runSockets_eq hs
  refine ⟨?_, ?_, ?_, ?_⟩
  · rw [he]
    exact s.runDriver_moment
  · rw [he]
    rfl
  · rw [hw, Broker.replay_agenda fun d hm => (socketsDeeds_spare hm).1, hr,
      Broker.replay_agenda fun d hm => (reapersDeeds_spare hm).1]
  · rw [hw, Broker.replay_wakeup fun d hm => (socketsDeeds_spare hm).2, hr,
      Broker.replay_wakeup fun d hm => (reapersDeeds_spare hm).2]

/-! ## What time leaves alone -/

section Keeps

variable {α : Type} {f : Session → α} (hclock : ∀ s m, f { s with moment := m } = f s)
  (hsettle : ∀ s s' : Session, s.settle = .ok s' → f s' = f s)
include hclock hsettle

theorem pass_keeps {n : Nat} (hp : pass n s = .ok s') : f s' = f s := by
  induction n generalizing s with
  | zero =>
    cases hp
    rfl
  | succ n ih =>
    obtain ⟨mid, hs, hrest⟩ := pass_succ_eq_ok_iff.mp hp
    exact (ih hrest).trans ((hsettle _ mid hs).trans (hclock s _))

theorem advance_keeps {ms : Nat} (ha : s.advance ms = .ok s') : f s' = f s := by
  unfold advance at ha
  split at ha
  · exact pass_keeps hclock hsettle ha
  · cases ha
    exact hclock s _

end Keeps

/-! ## The clocks -/

theorem settle_moment (h : s.broker.Linked) (hs : s.settle = .ok s') : s'.moment = s.moment :=
  (settle_settled h hs).moment

theorem pass_moment {n : Nat} (h : s.broker.Linked) (hp : pass n s = .ok s') :
    s'.moment = s.moment.after n := by
  induction n generalizing s with
  | zero =>
    cases hp
    simp [Moment.after]
  | succ n ih =>
    obtain ⟨mid, hs, hrest⟩ := pass_succ_eq_ok_iff.mp hp
    have hl := linked_settle (s := { s with moment := s.moment.after 1 }) h hs
    have hm := settle_moment (s := { s with moment := s.moment.after 1 }) h hs
    rw [ih hl hrest, hm]
    simp only [Moment.after, Moment.mk.injEq]
    omega

/-- A step that does not set the wall clock does not move it back. -/
theorem step_wall_le (h : s.broker.Linked) (hd : x.isDrop = false) (hw : x.setsWall = false)
    (hs : s.step x = .ok (a, s')) : s.moment.wall ≤ s'.moment.wall := by
  obtain ⟨acted, ha, ht⟩ := step_eq_ok_iff.mp hs
  rw [settle_moment (linked_act h ha) ht]
  by_cases hx : ∃ ms, x = .advance ms
  · obtain ⟨ms, rfl⟩ := hx
    obtain ⟨end', hp, he⟩ := map_eq_ok_iff.mp ha
    cases he
    have hm : acted.moment = s.moment.after ms := by
      unfold advance at hp
      split at hp
      · exact pass_moment h hp
      · cases hp
        rfl
    rw [hm]
    exact Int.le_add_of_nonneg_right (Int.natCast_nonneg ms)
  · have hm := (act_acted (fun ms he => hx ⟨ms, he⟩) hd ha).moment hw
    exact Int.le_of_eq (congrArg Moment.wall hm).symm

/-- Nor does a run of such steps. -/
theorem run_wall_le {steps : List Step} {answers : List Answer} (h : s.broker.Linked)
    (hd : ∀ x ∈ steps, x.isDrop = false) (hw : ∀ x ∈ steps, x.setsWall = false)
    (hr : s.run steps = .ok (answers, s')) : s.moment.wall ≤ s'.moment.wall := by
  induction steps generalizing s answers with
  | nil =>
    cases hr
    exact Int.le_refl _
  | cons x rest ih =>
    obtain ⟨a, mid, later, hx, hr, -⟩ := run_cons_eq_ok_iff.mp hr
    rw [List.forall_mem_cons] at hd hw
    exact Int.le_trans (step_wall_le h hd.1 hw.1 hx) (ih (linked_step h hx) hd.2 hw.2 hr)

end Session

end EventBroker
