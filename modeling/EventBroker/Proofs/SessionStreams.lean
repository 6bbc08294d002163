import EventBroker.Proofs.FiringOrder
import EventBroker.Proofs.SessionFrames

/-! # Subscribers of a session

Callers hold subscriptions, and so do the sockets that forward to them. `Session.Leads` says that
some deeds lead from one session to another, use held subscriptions only, fire without interruption,
and that what they leave subscribed is what is held afterwards. A step leads so to the next session,
and the tasks do, as long as nobody turns to a broker that has been dropped: what may still be done
then is `Step.outlivesBroker`.
-/
set_option autoImplicit false

namespace EventBroker

/-- Whether a step needs no broker. -/
def Step.outlivesBroker : Step → Bool
  | .now | .advance _ | .setWall _ | .stopDriver => true
  | .receive _ _ | .receiveOne _ | .unsubscribe _ => true
  | .readSocket _ | .send _ _ | .closeSocket _ _ => true
  | _ => false

namespace Broker

variable {b b' : Broker} {live rest : List Subscription} {deeds : List Deed} {m : Moment}

/-- Deeds that are not done for a subscriber change nothing about who is subscribed. -/
theorem lawful_of_not_streaming (hs : b.gateway.Serves live) (hd : b.gateway.dropped = false)
    (hk : ∀ d ∈ deeds, d.action.isStreaming = false ∧ d.action.isDrop = false) :
    b.Lawful live deeds ∧ b.lives live deeds = live := by
  induction deeds generalizing b with
  | nil => exact ⟨trivial, rfl⟩
  | cons d rest ih =>
    rw [List.forall_mem_cons] at hk
    have ha : b.Allows live d ∧ b.liveAfter live d = live := by
      obtain ⟨m, action⟩ := d
      cases action with
      | subscribe | unsubscribe | receive | receiveUpTo => cases hk.1.1
      | _ => exact ⟨hd, rfl⟩
    have hone := serviced hs ha.1
    have hserves := hone.serves
    rw [ha.2] at hserves
    obtain ⟨hlawful, hlives⟩ := ih hserves ((hone.dropped hk.1.2).trans hd) hk.2
    refine ⟨⟨ha.1, ?_⟩, ?_⟩
    · rw [ha.2]
      exact hlawful
    · rw [lives, ha.2]
      exact hlives

end Broker

/-- What one element of a list contributes to the whole, and what another one in its place does. -/
theorem exists_flatMap_set {α β : Type} (f : α → List β) {l : List α} {i : Nat} {a : α}
    (h : l[i]? = some a) : ∃ rest, (l.flatMap f).Perm (f a ++ rest) ∧
      ∀ a', ((l.set i a').flatMap f).Perm (f a' ++ rest) := by
  induction l generalizing i with
  | nil => cases h
  | cons b l ih =>
    cases i with
    | zero =>
      cases h
      exact ⟨l.flatMap f, .refl _, fun a' => .refl _⟩
    | succ i =>
      obtain ⟨rest, hold, hnew⟩ := ih h
      refine ⟨f b ++ rest, ?_, fun a' => ?_⟩
      · exact (hold.append_left (f b)).trans (List.perm_append_comm_assoc _ _ _)
      · exact ((hnew a').append_left (f b)).trans (List.perm_append_comm_assoc _ _ _)

/-- Where all elements differ, each comes from one place. -/
theorem eq_of_nodup_flatMap {α β : Type} {f : α → List β} {l : List α} (hn : (l.flatMap f).Nodup)
    {i j : Nat} {a a' : α} (hi : l[i]? = some a) (hj : l[j]? = some a') {b : β} (hb : b ∈ f a)
    (hb' : b ∈ f a') : i = j := by
  obtain ⟨hlt, rfl⟩ := List.getElem?_eq_some_iff.mp hi
  obtain ⟨hlt', rfl⟩ := List.getElem?_eq_some_iff.mp hj
  have hp := List.pairwise_iff_getElem.mp (List.nodup_flatMap.mp hn).2
  by_contra hne
  rcases Nat.lt_or_gt_of_ne hne with h | h
  · exact hp i j hlt hlt' h hb hb'
  · exact hp j i hlt' hlt h hb' hb

namespace Session

/-- The subscriptions that callers and sockets hold. -/
def held (s : Session) : List Subscription :=
  s.subscriptions.flatMap Option.toList ++ s.sockets.flatMap (·.subscription.toList)

variable {s s' s'' : Session} {deeds deeds' : List Deed} {x : Step} {a : Answer}

theorem mem_held_of_subscription? {k : Nat} {sub : Subscription}
    (h : s.subscription? k = some sub) : sub ∈ s.held := by
  refine List.mem_append_left _ (List.mem_flatMap.mpr ⟨some sub, ?_, List.mem_singleton_self sub⟩)
  exact List.mem_of_getElem? (Option.join_eq_some_iff.mp h)

structure Leads (s : Session) (deeds : List Deed) (s' : Session) : Prop where
  broker : s'.broker = s.broker.replay deeds
  lawful : s.broker.Lawful s.held deeds
  held : (s.broker.lives s.held deeds).Perm s'.held
  whole : s.broker.Whole deeds

/-- Those who hold a subscription are served; once the broker is dropped, neither a driver nor
reapers are left. -/
structure Streaming (s : Session) : Prop where
  serves : s.broker.gateway.Serves s.held
  ended : s.broker.gateway.dropped = true → s.driver = none ∧ s.reapers = []

namespace Leads

theorem trans (h : Leads s deeds s') (h' : Leads s' deeds' s'') :
    Leads s (deeds ++ deeds') s'' where
  broker := by rw [Broker.replay_append, ← h.broker, h'.broker]
  lawful := by
    rw [Broker.lawful_append_iff, ← h.broker]
    exact ⟨h.lawful, h'.lawful.perm h.held.symm⟩
  held := by
    rw [Broker.lives_append, ← h.broker]
    exact (Broker.lives_perm h.held deeds').trans h'.held
  whole := h.whole.append (h.broker ▸ h'.whole)

theorem serves (h : Leads s deeds s') (hs : s.broker.gateway.Serves s.held) :
    s'.broker.gateway.Serves s'.held := by
  rw [h.broker]
  exact (h.lawful.serves hs).perm h.held

theorem dropped (h : Leads s deeds s') (hs : s.broker.gateway.Serves s.held)
    (hd : ∀ d ∈ deeds, d.action.isDrop = false) :
    s'.broker.gateway.dropped = s.broker.gateway.dropped := by
  rw [h.broker]
  exact h.lawful.dropped hs hd

/-- Nothing happens. -/
theorem of_nil (hb : s'.broker = s.broker) (hh : s'.held.Perm s.held) : Leads s [] s' :=
  ⟨hb, trivial, hh.symm, .nil _⟩

/-- Deeds that are not done for subscribers. -/
theorem of_not_streaming (hs : s.broker.gateway.Serves s.held)
    (hb : s'.broker = s.broker.replay deeds) (hh : s'.held = s.held)
    (hd : s.broker.gateway.dropped = true → deeds = [])
    (hk : ∀ d ∈ deeds, d.action.isStreaming = false ∧ d.action.isDrop = false)
    (hw : s.broker.Whole deeds) : Leads s deeds s' := by
  cases hdropped : s.broker.gateway.dropped with
  | true =>
    obtain rfl := hd hdropped
    exact of_nil hb (.of_eq hh)
  | false =>
    obtain ⟨hlawful, hlives⟩ := Broker.lawful_of_not_streaming hs hdropped hk
    exact ⟨hb, hlawful, .of_eq (hlives.trans hh.symm), hw⟩

end Leads

/-! ## The driver and the reapers -/

theorem driverDeeds_not_streaming {d : Deed} (hd : d ∈ s.driverDeeds) :
    d.action.isStreaming = false ∧ d.action.isDrop = false := by
  have hk := driverDeeds_kind hd
  cases ha : d.action with
  | popDue | fire | wake => exact ⟨rfl, rfl⟩
  | _ => rw [ha] at hk; rcases hk with hk | hk <;> cases hk

theorem driverDeeds_whole (s : Session) : s.broker.Whole s.driverDeeds := by
  unfold driverDeeds
  split
  · exact .nil _
  split
  · refine (Broker.Whole.fireDeeds _ _ _).append ?_
    rw [Broker.replay_fireDeeds]
    split
    · exact .other rfl (.fireDeeds _ _ _)
    · exact .nil _
  · exact .nil _

theorem runDriver_eq (s : Session) :
    s.runDriver = { s with driver := s.runDriver.driver, broker := s.runDriver.broker } := by
  unfold runDriver
  split
  · rfl
  · split <;> rfl

theorem runDriver_leads (h : s.Streaming) : Leads s s.driverDeeds s.runDriver := by
  refine .of_not_streaming h.serves s.runDriver_broker ?_ (fun hd => ?_)
    (fun d hd => driverDeeds_not_streaming hd) s.driverDeeds_whole
  · rw [runDriver_eq]
    rfl
  · simp only [driverDeeds, (h.ended hd).1]

theorem runReapers_leads (h : s.Streaming) (hl : s.broker.Linked) :
    Leads s (reapersDeeds s.moment s.reapers s.broker) s.runReapers := by
  refine .of_not_streaming h.serves (runReapers_broker hl) rfl (fun hd => ?_) (fun d hd => ?_)
    (.of_not_firing fun d hd => ?_)
  · rw [(h.ended hd).2]
    rfl
  · obtain ⟨serial, rfl⟩ := reapersDeeds_kind hd
    exact ⟨rfl, rfl⟩
  · obtain ⟨serial, rfl⟩ := reapersDeeds_kind hd
    rfl

/-! ## The sockets -/

theorem endSocket_subscription {socket socket' : Socket} {b b' : Broker}
    (h : endSocket socket b = .ok (socket', b')) : socket'.subscription = none := by
  unfold endSocket at h
  split at h
  · next hs =>
    cases h
    exact hs
  · obtain ⟨_, -, he⟩ := map_eq_ok_iff.mp h
    cases he
    rfl

variable {b b' : Broker} {live rest : List Subscription} {socket socket' : Socket}

/-- A socket that ends gives up its subscription. -/
theorem endDeeds_lawful (m : Moment)
    (hp : live.Perm (socket.subscription.toList ++ rest)) :
    b.Lawful live (endDeeds m socket) ∧ (b.lives live (endDeeds m socket)).Perm rest := by
  unfold endDeeds
  cases h : socket.subscription with
  | none =>
    rw [h] at hp
    exact ⟨trivial, hp⟩
  | some sub =>
    rw [h] at hp
    refine ⟨⟨hp.mem_iff.mpr List.mem_cons_self, trivial⟩, ?_⟩
    have he := hp.erase sub
    rwa [Option.toList_some, List.singleton_append, List.erase_cons_head] at he

theorem forward_lawful (m : Moment)
    (hp : live.Perm (socket.subscription.toList ++ rest))
    (h : forward socket b = .ok (socket', b')) : b.Lawful live (forwardDeeds m socket b) ∧
      (b.lives live (forwardDeeds m socket b)).Perm (socket'.subscription.toList ++ rest) := by
  unfold forward at h
  unfold forwardDeeds
  cases hsub : socket.subscription with
  | none =>
    rw [hsub] at h hp
    cases h
    rw [hsub]
    exact ⟨trivial, hp⟩
  | some sub =>
    rw [hsub] at h hp
    simp only [receiveUpTo_dropped] at h
    have hmem : sub ∈ live := hp.mem_iff.mpr List.mem_cons_self
    split at h
    · next hd =>
      have he := hp.erase sub
      rw [Option.toList_some, List.singleton_append, List.erase_cons_head] at he
      rw [endSocket_subscription h]
      simp only [if_pos hd]
      exact ⟨⟨hmem, hmem, trivial⟩, he⟩
    · next hd =>
      cases h
      simp only [if_neg hd]
      exact ⟨⟨hmem, trivial⟩, hp⟩

/-- All sockets one after another. -/
theorem socketsDeeds_lawful (hs : s.runSockets = .ok s') : ∀ live rest : List Subscription,
    s.broker.gateway.Serves live →
      live.Perm (s.sockets.flatMap (·.subscription.toList) ++ rest) →
      s.broker.Lawful live (socketsDeeds s.moment s.sockets s.broker) ∧
        (s.broker.lives live (socketsDeeds s.moment s.sockets s.broker)).Perm
          (s'.sockets.flatMap (·.subscription.toList) ++ rest) := by
  refine runSockets_rec (P := fun sockets sockets' b _ => ∀ live rest : List Subscription,
    b.gateway.Serves live → live.Perm (sockets.flatMap (·.subscription.toList) ++ rest) →
      b.Lawful live (socketsDeeds s.moment sockets b) ∧
        (b.lives live (socketsDeeds s.moment sockets b)).Perm
          (sockets'.flatMap (·.subscription.toList) ++ rest)) (fun _ _ _ _ hp => ⟨trivial, hp⟩) ?_ hs
  intro socket socket' sockets sockets' b mid b' hf ih live rest hserves hp
  rw [List.flatMap_cons, List.append_assoc] at hp
  obtain ⟨hlawful, hlives⟩ := forward_lawful s.moment hp hf
  have hb := forward_replays s.moment hf
  have hserves' := hlawful.serves hserves
  rw [← hb] at hserves'
  obtain ⟨hlawful', hlives'⟩ := ih _ _ hserves' (hlives.trans (List.perm_append_comm_assoc _ _ _))
  constructor
  · rw [socketsDeeds, Broker.lawful_append_iff, ← hb]
    exact ⟨hlawful, hlawful'⟩
  · rw [socketsDeeds, Broker.lives_append, ← hb, List.flatMap_cons, List.append_assoc]
    exact hlives'.trans (List.perm_append_comm_assoc _ _ _)

theorem runSockets_leads (h : s.broker.gateway.Serves s.held) (hs : s.runSockets = .ok s') :
    Leads s (socketsDeeds s.moment s.sockets s.broker) s' := by
  have hb := runSockets_replays hs
  have hheld := socketsDeeds_lawful hs _ _ h List.perm_append_comm
  have he := runSockets_eq hs
  refine ⟨hb, hheld.1, ?_, .of_not_firing fun d hd => ?_⟩
  · refine hheld.2.trans ?_
    rw [he]
    exact List.perm_append_comm
  · obtain ⟨socket, -, sub, -, rfl | rfl⟩ := socketsDeeds_kind hd <;> rfl

/-! ## All tasks -/

theorem runDriver_streaming (h : s.Streaming) : s.runDriver.Streaming where
  serves := (runDriver_leads h).serves h.serves
  ended hd := by
    rw [(runDriver_leads h).dropped h.serves fun d hd => (driverDeeds_not_streaming hd).2] at hd
    have hnone := (h.ended hd).1
    have he : s.runDriver = s := by
      unfold runDriver
      rw [hnone]
    rw [he]
    exact h.ended hd

theorem runReapers_streaming (h : s.Streaming) (hl : s.broker.Linked) :
    s.runReapers.Streaming where
  serves := (runReapers_leads h hl).serves h.serves
  ended hd := by
    rw [(runReapers_leads h hl).dropped h.serves fun d hd => by
      obtain ⟨serial, rfl⟩ := reapersDeeds_kind hd
      rfl] at hd
    obtain ⟨hdriver, hreapers⟩ := h.ended hd
    refine ⟨hdriver, ?_⟩
    unfold runReapers
    rw [hreapers]
    rfl

theorem settle_leads (h : s.Streaming) (hl : s.broker.Linked) (hs : s.settle = .ok s') :
    Leads s s.taskDeeds s' ∧ s'.Streaming := by
  have hdriver := runDriver_leads h
  have hl' : s.runDriver.broker.Linked := hdriver.broker ▸ hl.replay _
  have hreapers := runReapers_leads (runDriver_streaming h) hl'
  have hstreaming := runReapers_streaming (runDriver_streaming h) hl'
  have hsockets := runSockets_leads hstreaming.serves hs
  have he := runSockets_eq hs
  have hd : s'.broker.gateway.dropped = s.runDriver.runReapers.broker.gateway.dropped :=
    hsockets.dropped hstreaming.serves fun d hd => by
      obtain ⟨socket, -, sub, -, rfl | rfl⟩ := socketsDeeds_kind hd <;> rfl
  have hall := (hdriver.trans hreapers).trans hsockets
  rw [show s.runDriver.runReapers.moment = s.runDriver.moment from rfl,
    show s.runDriver.runReapers.sockets = s.runDriver.sockets from rfl, s.runDriver_moment,
    show s.runDriver.sockets = s.sockets by rw [runDriver_eq],
    show s.runDriver.reapers = s.reapers by rw [runDriver_eq]] at hall
  refine ⟨hall, hsockets.serves hstreaming.serves, fun hdropped => ?_⟩
  rw [hd] at hdropped
  rw [he]
  exact hstreaming.ended hdropped

/-! ## Requests -/

end Session

namespace Api

variable {b b' : Broker} {fresh : FreshIds} {m : Moment} {req : Http.Request}

/-- A stream is what one subscription made. -/
theorem serve_stream {sub : Subscription} (h : serve b fresh m req = .ok (.stream sub, b')) :
    ∃ category, deeds b fresh m req = [⟨m, .subscribe category⟩] ∧
      b.subscribe category = .ok (sub, b') := by
  unfold serve at h
  split at h
  · cases h
  · split at h
    · cases h
    · next raw hpath hverb =>
      have hdeeds : deeds b fresh m req = resourceDeeds b fresh m req (.stream raw) .get := by
        rw [deeds, hpath]
        dsimp only
        rw [hverb]
      obtain ⟨⟨reply, b₁⟩, ho, he⟩ := Session.map_eq_ok_iff.mp h
      rcases openStream_cases m fresh ho with ⟨_, rfl, -⟩ | ⟨category, sub', rfl, hs, hd⟩
      · cases he
      · cases he
        exact ⟨category, hdeeds.trans hd, hs⟩
    · split at h <;> cases h

/-- Without a stream nobody is subscribed. -/
theorem serve_response {r : Http.Response} (h : serve b fresh m req = .ok (.response r, b'))
    {d : Deed} (hd : d ∈ deeds b fresh m req) : d.action.isService = true := by
  unfold serve at h
  unfold deeds at hd
  split at h
  · next hr =>
    simp only [hr] at hd
    cases hd
  · next resource hr =>
    simp only [hr] at hd
    split at h
    · next hv =>
      simp only [hv] at hd
      cases hd
    · next raw hv =>
      obtain ⟨⟨reply, b₁⟩, ho, he⟩ := Session.map_eq_ok_iff.mp h
      simp only [hv] at hd
      rcases openStream_cases m fresh ho with ⟨_, rfl, -, hnone⟩ | ⟨_, _, rfl, -⟩
      · rw [hnone] at hd
        cases hd
      · cases he
    · next verb hn hv =>
      simp only [hv] at hd
      rcases Session.resourceDeeds_kind hd with hk | ⟨⟨raw, rfl, rfl⟩, -⟩
      · exact hk
      · exact (hn _ rfl rfl).elim

end Api

namespace Session

variable {s s' : Session} {x : Step} {a : Answer}

/-! ## Steps for subscribers -/

theorem held_concat_subscription (s : Session) (broker : Broker) (sub : Subscription) :
    (sub :: s.held).Perm
      { s with broker, subscriptions := s.subscriptions ++ [some sub] }.held := by
  simp only [held, List.flatMap_append, List.flatMap_cons, List.flatMap_nil, Option.toList_some,
    List.append_nil, List.append_assoc, List.singleton_append]
  exact List.perm_middle.symm

theorem held_concat_socket (s : Session) (broker : Broker) (sub : Subscription)
    (sent : Fifo Frame) :
    (sub :: s.held).Perm
      { s with broker, sockets := s.sockets ++ [Socket.mk (some sub) sent] }.held := by
  simp only [held, List.flatMap_append, List.flatMap_cons, List.flatMap_nil, Option.toList_some,
    List.append_nil, ← List.append_assoc]
  exact (List.perm_append_singleton _ _).symm

/-- A socket in its place, and the subscriptions of all others. -/
theorem exists_held_setSocket {index : Nat} {socket : Socket}
    (h : s.sockets[index]? = some socket) : ∃ rest,
      s.held.Perm (socket.subscription.toList ++ rest) ∧ ∀ broker socket',
        ({ s with broker }.setSocket index socket').held.Perm
          (socket'.subscription.toList ++ rest) := by
  obtain ⟨rest, hold, hnew⟩ := exists_flatMap_set (·.subscription.toList) h
  refine ⟨s.subscriptions.flatMap Option.toList ++ rest, ?_, fun broker socket' => ?_⟩
  · exact (hold.append_left _).trans (List.perm_append_comm_assoc _ _ _)
  · exact ((hnew socket').append_left _).trans (List.perm_append_comm_assoc _ _ _)

theorem subscribe_leads (hd : s.broker.gateway.dropped = false) {category : String}
    {sub : Subscription} {b : Broker} (hs : s.broker.subscribe category = .ok (sub, b))
    (hb : s'.broker = b) (hp : (sub :: s.held).Perm s'.held) :
    Leads s [⟨s.moment, .subscribe category⟩] s' where
  broker := by
    rw [hb]
    simp only [Broker.replay_cons, Broker.replay_nil, Broker.perform, hs]
  lawful := ⟨hd, trivial⟩
  held := by
    have hmade : madeBy? s.broker ⟨s.moment, .subscribe category⟩ = some sub := by
      simp only [madeBy?, hs]
      rfl
    rw [Broker.lives, Broker.lives, Broker.liveAfter]
    simp only [hmade]
    exact hp
  whole := .other rfl (.nil _)

/-- A socket that ends where it stands. -/
theorem endSocket_leads {index : Nat} {socket socket' : Socket}
    (hi : s.sockets[index]? = some socket)
    (hb : s'.broker = s.broker.replay (endDeeds s.moment socket))
    (hs : s' = { s with broker := s'.broker }.setSocket index socket')
    (hnone : socket'.subscription = none) : Leads s (endDeeds s.moment socket) s' := by
  obtain ⟨rest, hold, hnew⟩ := exists_held_setSocket hi
  obtain ⟨hlawful, hlives⟩ := endDeeds_lawful s.moment hold
  refine ⟨hb, hlawful, hlives.trans ?_, .of_not_firing fun d hd => ?_⟩
  swap
  · obtain ⟨sub, -, rfl⟩ := endDeeds_eq hd
    rfl
  have hp := hnew s'.broker socket'
  rw [← hs, hnone] at hp
  exact hp.symm

theorem send_leads {index : Nat} {message : Message} (ha : s.send index message = .ok (a, s')) :
    Leads s (s.callerDeeds (.send index message)) s' := by
  have hb := send_replays ha
  unfold send at ha
  cases hi : s.sockets[index]? with
  | none =>
    rw [hi] at ha
    cases ha
    have hnone : s.callerDeeds (.send index message) = [] := by
      cases message with
      | ping text => simp [callerDeeds, hi]
      | _ => rfl
    rw [hnone]
    exact .of_nil rfl (.refl _)
  | some socket =>
    simp only [hi] at ha
    split at ha
    · next hnone =>
      cases ha
      have hnil : s.callerDeeds (.send index message) = [] := by
        cases message with
        | ping text => simp [callerDeeds, hi, endDeeds, Option.isNone_iff_eq_none.mp hnone]
        | _ => rfl
      rw [hnil]
      exact .of_nil rfl (.refl _)
    · split at ha
      · next text =>
        simp only [callerDeeds] at hb ⊢
        split at ha
        · next hsize =>
          cases ha
          rw [if_pos hsize]
          obtain ⟨rest, hold, hnew⟩ := exists_held_setSocket hi
          exact .of_nil rfl ((hnew s.broker _).trans hold.symm)
        · next hsize =>
          obtain ⟨⟨socket', b⟩, he, hr⟩ := map_eq_ok_iff.mp ha
          cases hr
          rw [if_neg hsize, hi] at hb ⊢
          simp only [Option.toList_some, List.flatMap_cons, List.flatMap_nil,
            List.append_nil] at hb ⊢
          exact endSocket_leads hi hb rfl (endSocket_subscription he)
      · cases ha
        exact .of_nil rfl (.refl _)
      · cases ha
        exact .of_nil rfl (.refl _)

theorem closeSocket_leads {index : Nat} {abrupt : Bool}
    (ha : s.closeSocket index abrupt = .ok (a, s')) :
    Leads s (s.callerDeeds (.closeSocket index abrupt)) s' := by
  have hb := closeSocket_replays ha
  unfold closeSocket at ha
  simp only [callerDeeds] at hb ⊢
  cases hi : s.sockets[index]? with
  | none =>
    rw [hi] at ha
    cases ha
    exact .of_nil rfl (.refl _)
  | some socket =>
    rw [hi] at ha hb
    obtain ⟨⟨socket', b⟩, he, hr⟩ := bind_eq_ok_iff.mp ha
    cases hr
    simp only [Option.toList_some, List.flatMap_cons, List.flatMap_nil, List.append_nil] at hb ⊢
    refine endSocket_leads hi hb rfl ?_
    have hnone := endSocket_subscription he
    split
    · exact hnone
    · exact hnone

theorem connect_leads (h : s.Streaming) (hl : s.broker.Linked)
    (hd : s.broker.gateway.dropped = false) {path : String}
    (ha : s.connect path = .ok (a, s')) : Leads s (s.callerDeeds (.connect path)) s' := by
  have hb := connect_replays hl ha
  unfold connect at ha
  simp only [callerDeeds] at hb ⊢
  cases hq : request? ⟨"GET", "ws://localhost" ++ path, none, []⟩ true with
  | none =>
    rw [hq] at ha
    cases ha
    exact .of_nil rfl (.refl _)
  | some req =>
    rw [hq] at ha hb
    obtain ⟨⟨reply, b⟩, hv, he⟩ := bind_eq_ok_iff.mp ha
    simp only [Option.toList_some, List.flatMap_cons, List.flatMap_nil, List.append_nil] at hb ⊢
    cases reply with
    | response r =>
      cases he
      refine .of_not_streaming h.serves hb rfl (fun ht => ?_) (fun d hm => ?_)
        (.of_not_firing fun d hm => ?_)
      · rw [hd] at ht
        cases ht
      · exact Action.not_streaming_of_isService (Api.serve_response hv hm)
      · exact Action.not_firing_of_isService (Api.serve_response hv hm)
    | stream sub =>
      cases he
      obtain ⟨category, hdeeds, hs⟩ := Api.serve_stream hv
      rw [hdeeds]
      exact subscribe_leads hd hs rfl (held_concat_socket s _ sub .empty)

theorem unsubscribe_leads {k : Nat} (ha : s.act (.unsubscribe k) = .ok (a, s'))
    (hb : s'.broker = s.broker.replay (s.callerDeeds (.unsubscribe k))) :
    Leads s (s.callerDeeds (.unsubscribe k)) s' := by
  simp only [act] at ha
  simp only [callerDeeds] at hb ⊢
  cases hu : s.subscription? k with
  | none =>
    rw [hu] at ha
    cases ha
    exact .of_nil rfl (.refl _)
  | some sub =>
    rw [hu] at ha hb
    obtain ⟨b, -, he⟩ := map_eq_ok_iff.mp ha
    cases he
    obtain ⟨rest, hold, hnew⟩ :=
      exists_flatMap_set Option.toList (Option.join_eq_some_iff.mp hu)
    refine ⟨hb, ⟨mem_held_of_subscription? hu, trivial⟩, ?_, .other rfl (.nil _)⟩
    have hheld : s.held.Perm
        (sub :: (rest ++ s.sockets.flatMap (·.subscription.toList))) :=
      hold.append_right _
    have herase := hheld.erase sub
    rw [List.erase_cons_head] at herase
    exact herase.trans ((hnew none).append_right _).symm

/-! ## Steps -/

theorem callerDeeds_whole (s : Session) (hdrop : x.isDrop = false) :
    s.broker.Whole (s.callerDeeds x) := by
  by_cases hf : ∃ now, x = .fire now
  · obtain ⟨now, rfl⟩ := hf
    exact .fireDeeds _ _ _
  · refine .of_not_firing fun d hd => ?_
    rcases callerDeeds_kind hdrop hd with hk | ⟨hk, -⟩ | ⟨-, hk⟩
    · exact Action.not_firing_of_isService hk
    · exact absurd hk hf
    · cases ha : d.action with
      | subscribe | unsubscribe | receive | receiveUpTo => rfl
      | _ => rw [ha] at hk; cases hk

/-- A step that has nothing to do with subscriptions. -/
theorem quiet_leads (h : s.Streaming) (hl : s.broker.Linked) (ht : ∀ ms, x ≠ .advance ms)
    (hx : s.broker.gateway.dropped = true → x.outlivesBroker = true) (hdrop : x.isDrop = false)
    (hs : x.isStreaming = false) (ha : s.act x = .ok (a, s')) :
    Leads s (s.callerDeeds x) s' := by
  have hacted := act_acted ht hdrop ha
  refine .of_not_streaming h.serves (act_replays hl ht ha) ?_ (fun hd => ?_) (fun d hm => ?_)
    (s.callerDeeds_whole hdrop)
  · have hf : ∀ sockets : List Socket, sockets.flatMap (·.subscription.toList) =
        (sockets.map (·.subscription)).flatMap Option.toList := fun sockets => by
      rw [List.flatMap_map]
    have hm : x.movesSubscriptions = false := by cases x <;> first | rfl | cases hs
    simp only [held, hf, hacted.subscriptions hm, hacted.forwarded hs]
  · have ho := hx hd
    cases x with
    | now | advance | setWall | stopDriver | readSocket => rfl
    | receive | receiveOne | unsubscribe | send | closeSocket => cases hs
    | _ => cases ho
  · rcases callerDeeds_kind hdrop hm with hk | ⟨-, hk⟩ | ⟨hk, -⟩
    · exact Action.not_streaming_of_isService hk
    · cases haction : d.action with
      | popDue | fire => exact ⟨rfl, rfl⟩
      | _ => rw [haction] at hk; cases hk
    · rw [hs] at hk
      cases hk

/-- What a step that takes no time does to what is held. -/
theorem act_leads (h : s.Streaming) (hl : s.broker.Linked) (ht : ∀ ms, x ≠ .advance ms)
    (hx : s.broker.gateway.dropped = true → x.outlivesBroker = true)
    (ha : s.act x = .ok (a, s')) : Leads s (s.callerDeeds x) s' := by
  have hb := act_replays hl ht ha
  have halive : x.outlivesBroker = false → s.broker.gateway.dropped = false := by
    intro ho
    cases hd : s.broker.gateway.dropped with
    | true => rw [hx hd] at ho; cases ho
    | false => rfl
  by_cases hdrop : x.isDrop = true
  · cases x with
    | dropBroker limit =>
      refine ⟨hb, ⟨halive rfl, trivial⟩, .of_eq ?_, .other rfl (.nil _)⟩
      simp only [act, Except.ok.injEq] at ha
      have he : (s.dropBroker limit).2 = s' := congrArg Prod.snd ha
      rw [← he]
      simp only [dropBroker, driverEnd]
      split <;> rfl
    | _ => cases hdrop
  rw [Bool.not_eq_true] at hdrop
  by_cases hs : x.isStreaming = true
  · cases x with
    | subscribe category =>
      obtain ⟨⟨sub, b⟩, hc, he⟩ := map_eq_ok_iff.mp ha
      cases he
      exact subscribe_leads (halive rfl) hc rfl (held_concat_subscription s _ sub)
    | receive k max | receiveOne k =>
      cases hu : s.subscription? k with
      | none =>
        simp only [act, hu, Except.ok.injEq, Prod.mk.injEq] at ha
        simp only [callerDeeds, hu]
        exact .of_nil (congrArg _ ha.2.symm) (.of_eq (congrArg _ ha.2.symm))
      | some sub =>
        simp only [act, hu, Session.receive, Except.ok.injEq, Prod.mk.injEq] at ha
        simp only [callerDeeds, hu] at hb ⊢
        refine ⟨hb, ⟨mem_held_of_subscription? hu, trivial⟩, .of_eq ?_, .other rfl (.nil _)⟩
        rw [← ha.2]
        rfl
    | unsubscribe k => exact unsubscribe_leads ha hb
    | connect path => exact connect_leads h hl (halive rfl) ha
    | send index message => exact send_leads ha
    | closeSocket index abrupt => exact closeSocket_leads ha
    | _ => cases hs
  · exact quiet_leads h hl ht hx hdrop (Bool.eq_false_iff.mpr hs) ha

theorem act_streaming (h : s.Streaming) (hl : s.broker.Linked) (ht : ∀ ms, x ≠ .advance ms)
    (hx : s.broker.gateway.dropped = true → x.outlivesBroker = true)
    (ha : s.act x = .ok (a, s')) : s'.Streaming := by
  have hleads := act_leads h hl ht hx ha
  refine ⟨hleads.serves h.serves, fun hd => ?_⟩
  by_cases hdrop : x.isDrop = true
  · cases x with
    | dropBroker limit =>
      simp only [act, Except.ok.injEq] at ha
      have he : (s.dropBroker limit).2 = s' := congrArg Prod.snd ha
      rw [← he]
      simp only [dropBroker, driverEnd]
      cases hdriver : s.driver with
      | none => exact ⟨rfl, rfl⟩
      | some deadline => exact ⟨rfl, rfl⟩
    | _ => cases hdrop
  rw [Bool.not_eq_true] at hdrop
  rw [hleads.dropped h.serves fun d hm =>
    Action.isDrop_of_isOrdinary (callerDeeds_ordinary hdrop hm)] at hd
  have ho := hx hd
  have hacted := act_acted ht hdrop ha
  obtain ⟨hdriver, hreapers⟩ := h.ended hd
  have hr : s'.reapers = s.reapers := hacted.reapers (by cases x <;> first | rfl | cases ho)
  refine ⟨?_, hr.trans hreapers⟩
  by_cases hstop : x = .stopDriver
  · subst hstop
    cases ha
    rfl
  · refine (hacted.driver ?_).trans hdriver
    cases x with
    | stopDriver => exact absurd rfl hstop
    | startDriver | dropBroker => cases ho
    | _ => rfl

theorem pass_leads {n : Nat} (h : s.Streaming) (hl : s.broker.Linked) (hp : pass n s = .ok s') :
    Leads s ((passBeats n s).flatMap taskDeeds) s' ∧ s'.Streaming := by
  induction n generalizing s with
  | zero =>
    cases hp
    exact ⟨.of_nil rfl (.refl _), h⟩
  | succ n ih =>
    obtain ⟨mid, hs, hlast⟩ := pass_succ_eq_ok_iff.mp hp
    have hlater : Streaming { s with moment := s.moment.after 1 } := ⟨h.serves, h.ended⟩
    obtain ⟨hleads, hmid⟩ := settle_leads hlater hl hs
    obtain ⟨hrest, hfinal⟩ := ih hmid (hleads.broker ▸ Broker.Linked.replay hl _) hlast
    simp only [passBeats, hs, List.flatMap_cons]
    exact ⟨Leads.trans ⟨hleads.broker, hleads.lawful, hleads.held, hleads.whole⟩ hrest, hfinal⟩

/-- What a step does before the tasks run for the last time. -/
theorem acted_leads (h : s.Streaming) (hl : s.broker.Linked)
    (hx : s.broker.gateway.dropped = true → x.outlivesBroker = true)
    (ha : s.act x = .ok (a, s')) :
    Leads s (s.callerDeeds x ++ (s.innerBeats x).flatMap taskDeeds) s' ∧ s'.Streaming := by
  by_cases ht : ∃ ms, x = .advance ms
  · obtain ⟨ms, rfl⟩ := ht
    obtain ⟨later, hp, he⟩ := map_eq_ok_iff.mp ha
    cases he
    simp only [callerDeeds, List.nil_append, innerBeats]
    unfold advance at hp
    split at hp
    · next hw =>
      rw [if_pos hw]
      exact pass_leads h hl hp
    · next hw =>
      rw [if_neg hw]
      cases hp
      exact ⟨.of_nil rfl (.refl _), ⟨h.serves, h.ended⟩⟩
  · have ht' : ∀ ms, x ≠ .advance ms := fun ms he => ht ⟨ms, he⟩
    have hinner : s.innerBeats x = [] := by
      cases x with
      | advance ms => exact absurd rfl (ht' ms)
      | _ => rfl
    rw [hinner, List.flatMap_nil, List.append_nil]
    exact ⟨act_leads h hl ht' hx ha, act_streaming h hl ht' hx ha⟩

/-- Nothing but its own step drops the broker. -/
theorem act_dropped (h : s.Streaming) (hl : s.broker.Linked)
    (hx : s.broker.gateway.dropped = true → x.outlivesBroker = true)
    (ha : s.act x = .ok (a, s')) :
    s'.broker.gateway.dropped = (x.isDrop || s.broker.gateway.dropped) := by
  cases hdrop : x.isDrop with
  | false =>
    rw [Bool.false_or]
    refine (acted_leads h hl hx ha).1.dropped h.serves fun d hd => ?_
    rw [List.mem_append, List.mem_flatMap] at hd
    rcases hd with hd | ⟨found, -, hd⟩
    · exact Action.isDrop_of_isOrdinary (callerDeeds_ordinary hdrop hd)
    · exact taskDeeds_drop hd
  | true =>
    cases x with
    | dropBroker limit =>
      rw [show s' = (s.dropBroker limit).2 from (congrArg Prod.snd (Except.ok.inj ha)).symm]
      simp only [dropBroker, driverEnd]
      split <;> rfl
    | _ => cases hdrop

theorem step_leads (h : s.Streaming) (hl : s.broker.Linked)
    (hx : s.broker.gateway.dropped = true → x.outlivesBroker = true)
    (hs : s.step x = .ok (a, s')) : Leads s (s.stepDeeds x) s' ∧ s'.Streaming := by
  obtain ⟨acted, ha, ht⟩ := step_eq_ok_iff.mp hs
  obtain ⟨hleads, hacted⟩ := acted_leads h hl hx ha
  obtain ⟨htasks, hfinal⟩ := settle_leads hacted (linked_act hl ha) ht
  refine ⟨?_, hfinal⟩
  have hall := hleads.trans htasks
  simpa [stepDeeds, beats, ha] using hall

/-! ## Runs -/

/-- Once the broker is dropped, nobody turns to it any more. -/
def Sensible (steps : List Step) : Prop :=
  steps.Pairwise fun x y => x.isDrop = true → y.outlivesBroker = true

/-- What may follow a step may follow it in the session to which it leads. -/
theorem Sensible.step {steps : List Step} (hs : Sensible (x :: steps)) (h : s.Streaming)
    (hx : s.broker.gateway.dropped = true → ∀ y ∈ x :: steps, y.outlivesBroker = true)
    (hl : Leads s (s.stepDeeds x) s') :
    Sensible steps ∧
      (s'.broker.gateway.dropped = true → ∀ y ∈ steps, y.outlivesBroker = true) := by
  obtain ⟨hfirst, hrest⟩ := List.pairwise_cons.mp hs
  refine ⟨hrest, fun hd y hy => ?_⟩
  cases hdrop : x.isDrop with
  | true => exact hfirst y hy hdrop
  | false =>
    rw [hl.dropped h.serves fun d hd => stepDeeds_drop hdrop hd] at hd
    exact hx hd y (List.mem_cons_of_mem _ hy)

theorem run_leads {steps : List Step} {answers : List Answer} (h : s.Streaming)
    (hl : s.broker.Linked) (hs : Sensible steps)
    (hx : s.broker.gateway.dropped = true → ∀ x ∈ steps, x.outlivesBroker = true)
    (hr : s.run steps = .ok (answers, s')) : Leads s (s.deeds steps) s' ∧ s'.Streaming := by
  induction steps generalizing s answers with
  | nil =>
    cases hr
    exact ⟨.of_nil rfl (.refl _), h⟩
  | cons x rest ih =>
    obtain ⟨a, mid, later, hstep, hr, -⟩ := run_cons_eq_ok_iff.mp hr
    obtain ⟨hleads, hmid⟩ := step_leads h hl (fun hd => hx hd x List.mem_cons_self) hstep
    obtain ⟨hrest, hlater⟩ := hs.step h hx hleads
    obtain ⟨hlast, hfinal⟩ := ih hmid (linked_step hl hstep) hrest hlater hr
    refine ⟨?_, hfinal⟩
    simp only [deeds, hstep]
    exact hleads.trans hlast

theorem Streaming.new {settings : BrokerSettings} {b : Broker}
    (hb : Broker.new settings = .ok b) (supply : IdSupply) (m : Moment) :
    (Session.new supply b m).Streaming := by
  rw [Broker.new_eq hb]
  exact ⟨.new _, fun h => Bool.noConfusion h⟩

end Session

end EventBroker
