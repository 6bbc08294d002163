import EventBroker.Proofs.AlikeRequests
import EventBroker.Proofs.Rest

/-! # Sessions that look alike

Some observers are set apart, channels and listeners. Two sessions are `Session.Alike` if to
everyone else they look the same: the brokers are alike, and the other listeners hear the same. A
step that none of the observers takes, and that takes no census of them, is answered the same in
both and leaves them alike (`Alike.act`), and so do the tasks (`Alike.settle`).
-/
set_option autoImplicit false

namespace EventBroker

/-- The channels and listeners that are set apart. -/
structure Observers where
  channel : ChannelId → Bool
  listener : Listener → Bool

namespace Step

/-- The channel of which a step asks something, unless the step gives none or a malformed one. -/
def channel? : Step → Option ChannelId
  | .getChannel text | .deleteChannel text | .dequeue text => ChannelId.parse? text
  | _ => none

/-- The request that a step sends, unless it sends none or a malformed one. -/
def request? : Step → Option Http.Request
  | .http request => Session.request? request false
  | .connect path => Session.request? ⟨"GET", "ws://localhost" ++ path, none, []⟩ true
  | _ => none

/-- Whether a step asks for the channels or subscribers there are, or for what they have counted. -/
def isCensus : Step → Bool
  | .listChannels | .subscriberCount | .metrics => true
  | x => x.request?.any Api.isCensus

end Step

namespace Observers

/-- Whether a step is taken on one of the channels or by one of the listeners. -/
def take (o : Observers) (x : Step) : Bool :=
  x.channel?.any o.channel || x.listener?.any o.listener || x.request?.any (Api.isApart o.channel)

/-- An answer without the channels among the observers. -/
def hide (o : Observers) : Answer → Answer
  | .channels ids => .channels (ids.filter fun id => !o.channel id)
  | a => a

end Observers

namespace Session
open Broker

variable {o : Observers} {s s' s'' t t' : Session} {b b' : Broker} {l : Listener} {x : Step}

/-! ## What is alike -/

/-- Two sessions that differ at most in what the observers see and in what has been counted. -/
structure Alike (o : Observers) (s s' : Session) : Prop where
  supply : s.supply = s'.supply
  moment : s.moment = s'.moment
  driver : s.driver = s'.driver
  reapers : s.reapers = s'.reapers
  broker : Broker.Alike o.channel s.broker s'.broker
  subscriptions : s.subscriptions.length = s'.subscriptions.length
  sockets : s.sockets.length = s'.sockets.length
  views : ∀ l, o.listener l = false → s.view l = s'.view l

/-- Two answers with the sessions they leave: the answers are the same besides the observers. -/
structure Agreed (o : Observers) (p p' : Answer × Session) : Prop where
  answer : o.hide p.1 = o.hide p'.1
  alike : Alike o p.2 p'.2

namespace Alike

theorem refl (o : Observers) (s : Session) : Alike o s s :=
  ⟨rfl, rfl, rfl, rfl, .refl o.channel s.broker, rfl, rfl, fun _ _ => rfl⟩

theorem symm (h : Alike o s s') : Alike o s' s where
  supply := h.supply.symm
  moment := h.moment.symm
  driver := h.driver.symm
  reapers := h.reapers.symm
  broker := h.broker.symm
  subscriptions := h.subscriptions.symm
  sockets := h.sockets.symm
  views l hl := (h.views l hl).symm

theorem trans (h : Alike o s s') (h' : Alike o s' s'') : Alike o s s'' where
  supply := h.supply.trans h'.supply
  moment := h.moment.trans h'.moment
  driver := h.driver.trans h'.driver
  reapers := h.reapers.trans h'.reapers
  broker := h.broker.trans h'.broker
  subscriptions := h.subscriptions.trans h'.subscriptions
  sockets := h.sockets.trans h'.sockets
  views l hl := (h.views l hl).trans (h'.views l hl)

/-- A listener that is not set apart is in the same position in both sessions. -/
theorem listener_cases (h : Alike o s s') (hl : o.listener l = false) :
    (s.subscriptionOf? l = none ∧ s'.subscriptionOf? l = none) ∨
      ∃ sub sub', s.subscriptionOf? l = some sub ∧ s'.subscriptionOf? l = some sub' ∧
        sub.category = sub'.category ∧
        s.broker.gateway.waiting sub = s'.broker.gateway.waiting sub' := by
  have hh := congrArg View.heard (h.views l hl)
  simp only [Session.view, Session.heard] at hh
  cases hs : s.subscriptionOf? l with
  | none =>
    rw [hs, Option.map_none] at hh
    exact .inl ⟨rfl, Option.map_eq_none_iff.mp hh.symm⟩
  | some sub =>
    rw [hs, Option.map_some] at hh
    obtain ⟨sub', hs', he⟩ := Option.map_eq_some_iff.mp hh.symm
    obtain ⟨hc, hw⟩ := Prod.mk.inj he
    exact .inr ⟨sub, sub', rfl, hs', hc.symm, hw.symm⟩

theorem fresh (h : Alike o s s') : s.fresh = s'.fresh := by
  unfold Session.fresh
  rw [h.supply, h.broker.nextChannel, h.broker.scheduled]

end Alike

/-! ## Steps on the broker -/

theorem view_of_gateway (hg : b.gateway = s.broker.gateway) (l : Listener) :
    { s with broker := b }.view l = s.view l :=
  view_congr rfl rfl fun _ _ => by rw [hg]

theorem Alike.of_agree {α : Type} {a a' : α} (h : Alike o s s')
    (ha : Agree o.channel s.broker s'.broker (a, b) (a', b')) :
    Alike o { s with broker := b } { s' with broker := b' } :=
  { h with
    broker := ha.alike
    views := fun l hl => by
      rw [view_of_gateway ha.gateway, view_of_gateway ha.gateway', h.views l hl] }

theorem Alike.of_unnoticed (hu : Unnoticed o.channel s.broker b) :
    Alike o s { s with broker := b } :=
  { Alike.refl o s with
    broker := hu.alike
    views := fun l _ => (view_of_gateway hu.gateway l).symm }

theorem Alike.onBroker {α : Type} {outcome outcome' : Outcome α} (h : Alike o s s')
    (ha : Agree o.channel s.broker s'.broker outcome outcome') (accept : α → Answer) :
    Agreed o (s.onBroker accept outcome) (s'.onBroker accept outcome') := by
  obtain ⟨result, b⟩ := outcome
  obtain ⟨result', b'⟩ := outcome'
  obtain rfl : result = result' := ha.answer
  cases result with
  | ok a => exact ⟨rfl, h.of_agree ha⟩
  | error e => exact ⟨rfl, h.of_agree ha⟩

theorem Alike.onChannel {α : Type} {text : String} {run run' : ChannelId → Outcome α}
    (h : Alike o s s') (ht : (ChannelId.parse? text).any o.channel = false)
    (hr : ∀ id, o.channel id = false → Agree o.channel s.broker s'.broker (run id) (run' id))
    (accept : α → Answer) :
    Agreed o (s.onChannel text accept run) (s'.onChannel text accept run') := by
  unfold Session.onChannel
  cases hp : ChannelId.parse? text with
  | none => exact ⟨rfl, h⟩
  | some id =>
    rw [hp] at ht
    exact h.onBroker (hr id ht) accept

theorem Alike.of_onChannel {α : Type} {text : String} {run : ChannelId → Outcome α}
    (ht : (ChannelId.parse? text).any o.channel = true)
    (hr : ∀ id, o.channel id = true → Unnoticed o.channel s.broker (run id).2)
    (accept : α → Answer) : Alike o s (s.onChannel text accept run).2 := by
  obtain ⟨id, hp, hid⟩ := (Option.any_eq_true _ _).mp ht
  have hu := Alike.of_unnoticed (hr id hid)
  simp only [Session.onChannel, hp]
  split
  · next he =>
    rw [he] at hu
    exact hu
  · next he =>
    rw [he] at hu
    exact hu

theorem Alike.reap (h : Alike o s s') (hl : s.broker.Linked) (hl' : s'.broker.Linked)
    (timeout : Nat) {m m' : Moment} (hm : m = m') :
    Agreed o (.channels (s.broker.reap timeout m).1,
        { s with broker := (s.broker.reap timeout m).2 })
      (.channels (s'.broker.reap timeout m').1,
        { s' with broker := (s'.broker.reap timeout m').2 }) := by
  subst hm
  obtain ⟨hids, hb⟩ := h.broker.reap hl.distinct hl'.distinct timeout m
  have hg : ∀ b : Broker, (b.reap timeout m).2.gateway = b.gateway := fun b => by
    rw [Broker.reap, foldl_closeChannel_eq]
  refine ⟨congrArg Answer.channels hids, { h with broker := hb, views := fun l hl => ?_ }⟩
  rw [view_of_gateway (hg _), view_of_gateway (hg _), h.views l hl]

/-- What is due fires into sessions that are alike in the same way. -/
theorem Alike.fireDue (h : Alike o s s') (hl : s.broker.Linked) (hl' : s'.broker.Linked)
    (hs : s.broker.gateway.Serves s.held) (hs' : s'.broker.gateway.Serves s'.held)
    (hd : s.broker.gateway.dropped = false) {now now' : Nat} (hnow : now = now') {m m' : Moment}
    (hm : m = m') :
    Agreed o (.number (s.broker.fireDue now m).1,
        { s with broker := (s.broker.fireDue now m).2 })
      (.number (s'.broker.fireDue now' m').1,
        { s' with broker := (s'.broker.fireDue now' m').2 }) := by
  subst hnow hm
  obtain ⟨hcount, hb⟩ := h.broker.fireDue hl hl' now m
  refine ⟨congrArg Answer.number hcount, { h with broker := hb, views := fun l hl₀ => ?_ }⟩
  have hsent : s.sent? l = s'.sent? l := congrArg View.sent (h.views l hl₀)
  obtain ⟨hn, hn'⟩ | ⟨sub, sub', hsub, hsub', hc, hw⟩ := h.listener_cases hl₀
  · have hleft : { s with broker := (s.broker.fireDue now m).2 }.view l = ⟨none, s.sent? l⟩ :=
      view_of_none hn
    have hright : { s' with broker := (s'.broker.fireDue now m).2 }.view l =
        ⟨none, s'.sent? l⟩ := view_of_none hn'
    rw [hleft, hright, hsent]
  · have hleft : { s with broker := (s.broker.fireDue now m).2 }.view l =
        ⟨some (sub.category, (s.broker.fireDue now m).2.gateway.waiting sub), s.sent? l⟩ :=
      view_of_some hsub
    have hright : { s' with broker := (s'.broker.fireDue now m).2 }.view l =
        ⟨some (sub'.category, (s'.broker.fireDue now m).2.gateway.waiting sub'), s'.sent? l⟩ :=
      view_of_some hsub'
    rw [hleft, hright, hsent, hc, h.broker.fireDue_waiting hl hl' hs hs' hd
      (mem_held_of_subscriptionOf? hsub) (mem_held_of_subscriptionOf? hsub') hc hw now m]

/-! ## Steps for listeners -/

theorem Alike.streamed (h : Alike o s s') (ht : Streamed s t) (ht' : Streamed s' t')
    (hv : ∀ l, o.listener l = false → t.view l = t'.view l) : Alike o t t' where
  supply := by rw [ht.eq, ht'.eq, h.supply]
  moment := by rw [ht.eq, ht'.eq, h.moment]
  driver := by rw [ht.eq, ht'.eq, h.driver]
  reapers := by rw [ht.eq, ht'.eq, h.reapers]
  broker := ((ht.broker _).symm.trans h.broker).trans (ht'.broker _)
  subscriptions := (ht.subscriptions.trans h.subscriptions).trans ht'.subscriptions.symm
  sockets := (ht.sockets.trans h.sockets).trans ht'.sockets.symm
  views := hv

theorem Alike.turned {a a' : Answer} (h : Alike o s s') (ht : Turned s l x a t)
    (ht' : Turned s' l x a' t') (hl : o.listener l = false) : Agreed o (a, t) (a', t') := by
  have hown : (a, t.view l) = (a', t'.view l) := by
    rw [ht.own, ht'.own, h.views l hl, h.broker.dropped]
  obtain ⟨hanswer, hview⟩ := Prod.mk.inj hown
  refine ⟨congrArg o.hide hanswer, h.streamed ht.toStreamed ht'.toStreamed fun l' hl' => ?_⟩
  by_cases he : l' = l
  · rw [he]
    exact hview
  · rw [ht.others l' he, ht'.others l' he, h.views l' hl']

/-- The turn of a listener that is set apart is noticed by nobody else. -/
theorem Turned.alike {a : Answer} (h : Turned s l x a t) (hl : o.listener l = true) :
    Alike o s t := by
  refine (Alike.refl o s).streamed (.refl s) h.toStreamed fun l' hl' => (h.others l' ?_).symm
  rintro rfl
  rw [hl] at hl'
  cases hl'

theorem getElem?_concat_of_ne {α : Type} {l : List α} {i : Nat} (h : i ≠ l.length) (a : α) :
    (l ++ [a])[i]? = l[i]? := by
  rcases Nat.lt_or_gt_of_ne h with hlt | hgt
  · exact List.getElem?_append_left hlt
  · have hlen : (l ++ [a]).length ≤ i := by
      rw [List.length_append]
      exact hgt
    rw [List.getElem?_eq_none hlen, List.getElem?_eq_none (Nat.le_of_lt hgt)]

/-- Nothing waits for a new subscription, and nothing happens to the others. -/
theorem waiting_of_subscribe (h : s.broker.gateway.Serves s.held) {category : String}
    {sub : Subscription} (hs : s.broker.subscribe category = .ok (sub, b)) :
    sub.category = category ∧ b.gateway.waiting sub = [] ∧
      ∀ sub' ∈ s.held, b.gateway.waiting sub' = s.broker.gateway.waiting sub' := by
  obtain ⟨⟨sub₀, g⟩, hg, he⟩ := map_eq_ok_iff.mp hs
  cases he
  obtain ⟨hnew, hothers⟩ := h.waiting_subscribe hg
  refine ⟨?_, hnew, hothers⟩
  rw [(Gateway.subscribe_spec hg).1]

theorem view_subscribed (h : s.broker.gateway.Serves s.held) {category : String}
    {sub : Subscription} (hs : s.broker.subscribe category = .ok (sub, b)) (l : Listener) :
    { s with broker := b, subscriptions := s.subscriptions ++ [some sub] }.view l =
      if l = .subscriber s.subscriptions.length then ⟨some (category, []), none⟩
      else s.view l := by
  obtain ⟨hc, hnew, hothers⟩ := waiting_of_subscribe h hs
  split
  · next hl =>
    subst hl
    have hsub : { s with broker := b, subscriptions := s.subscriptions ++ [some sub]
        }.subscriptionOf? (.subscriber s.subscriptions.length) = some sub := by
      simp [subscriptionOf?, subscription?]
    rw [view_of_some hsub, hc]
    simp only [hnew]
    rfl
  · next hl =>
    refine view_congr ?_ rfl fun sub' hsub' => hothers sub' (mem_held_of_subscriptionOf? hsub')
    cases l with
    | subscriber index =>
      have hne : index ≠ s.subscriptions.length := fun he => hl (congrArg _ he)
      simp only [subscriptionOf?, subscription?, getElem?_concat_of_ne hne]
    | socket index => rfl

theorem view_connected (h : s.broker.gateway.Serves s.held) {category : String}
    {sub : Subscription} (hs : s.broker.subscribe category = .ok (sub, b)) (l : Listener) :
    { s with broker := b, sockets := s.sockets ++ [Socket.mk (some sub) .empty] }.view l =
      if l = .socket s.sockets.length then ⟨some (category, []), some .empty⟩ else s.view l := by
  obtain ⟨hc, hnew, hothers⟩ := waiting_of_subscribe h hs
  split
  · next hl =>
    subst hl
    have hi : { s with broker := b, sockets := s.sockets ++ [Socket.mk (some sub) .empty]
        }.sockets[s.sockets.length]? = some ⟨some sub, .empty⟩ := List.getElem?_concat_length
    rw [view_socket hi, Option.map_some, hc, hnew]
  · next hl =>
    cases l with
    | subscriber index =>
      exact view_congr rfl rfl fun sub' hsub' =>
        hothers sub' (mem_held_of_subscriptionOf? hsub')
    | socket index =>
      have hne : index ≠ s.sockets.length := fun he => hl (congrArg _ he)
      refine view_congr ?_ ?_ fun sub' hsub' => hothers sub' (mem_held_of_subscriptionOf? hsub')
      · simp only [subscriptionOf?, getElem?_concat_of_ne hne]
      · simp only [sent?, getElem?_concat_of_ne hne]

theorem Alike.subscribe (h : Alike o s s') (hs : s.broker.gateway.Serves s.held)
    (hs' : s'.broker.gateway.Serves s'.held) {category : String} {sub : Subscription}
    (hok : s.broker.subscribe category = .ok (sub, b)) : ∃ sub' b',
      s'.broker.subscribe category = .ok (sub', b') ∧
      Alike o { s with broker := b, subscriptions := s.subscriptions ++ [some sub] }
        { s' with broker := b', subscriptions := s'.subscriptions ++ [some sub'] } ∧
      Alike o { s with broker := b, sockets := s.sockets ++ [Socket.mk (some sub) .empty] }
        { s' with broker := b', sockets := s'.sockets ++ [Socket.mk (some sub') .empty] } := by
  obtain ⟨sub', b', hok', halike⟩ := h.broker.subscribe hok
  refine ⟨sub', b', hok', { h with
    broker := halike, subscriptions := ?_, views := fun l hl => ?_ }, { h with
    broker := halike, sockets := ?_, views := fun l hl => ?_ }⟩
  · simp [h.subscriptions]
  · rw [view_subscribed hs hok, view_subscribed hs' hok', h.subscriptions, h.views l hl]
  · simp [h.sockets]
  · rw [view_connected hs hok, view_connected hs' hok', h.sockets, h.views l hl]

/-! ## Requests -/

/-- Whatever one of two sessions can do, the other can do, and they agree on it. -/
def Follows (o : Observers) (r r' : Except Crash (Answer × Session)) : Prop :=
  ∀ p, r = .ok p → ∃ p', r' = .ok p' ∧ Agreed o p p'

theorem Follows.of_ok {p p' : Answer × Session} (h : Agreed o p p') :
    Follows o (.ok p) (.ok p') := by
  rintro p ⟨⟩
  exact ⟨p', rfl, h⟩

theorem opens?_of_request? {r : RawRequest} {req : Http.Request}
    (h : request? r false = some req) : Api.opens? req = none := by
  have hup := upgrade_of_request? h
  unfold Api.opens?
  split
  · rw [if_neg]
    rintro ⟨-, ht⟩
    rw [hup] at ht
    cases ht
  · rfl

theorem Alike.http (h : Alike o s s') {r : RawRequest}
    (ha : (request? r false).any (Api.isApart o.channel) = false)
    (hc : (request? r false).any Api.isCensus = false) : Follows o (s.http r) (s'.http r) := by
  unfold Session.http
  cases hq : request? r false with
  | none => exact .of_ok ⟨rfl, h⟩
  | some req =>
    rw [hq] at ha hc
    obtain ⟨response, b, b', hserve, hserve', hagree⟩ :=
      Api.serve_agree h.broker ha hc (opens?_of_request? hq) s.fresh s.moment
    rw [h.fresh, h.moment] at hserve'
    simp only [hserve, hserve']
    exact .of_ok ⟨rfl, h.of_agree hagree⟩

theorem Alike.connect (h : Alike o s s') (hs : s.broker.gateway.Serves s.held)
    (hs' : s'.broker.gateway.Serves s'.held) {path : String}
    (ha : (Step.connect path).request?.any (Api.isApart o.channel) = false)
    (hc : (Step.connect path).request?.any Api.isCensus = false) :
    Follows o (s.connect path) (s'.connect path) := by
  simp only [Step.request?] at ha hc
  unfold Session.connect
  cases hq : request? ⟨"GET", "ws://localhost" ++ path, none, []⟩ true with
  | none => exact .of_ok ⟨rfl, h⟩
  | some req =>
    rw [hq] at ha hc
    cases hopen : Api.opens? req with
    | none =>
      obtain ⟨response, b, b', hserve, hserve', hagree⟩ :=
        Api.serve_agree h.broker ha hc hopen s.fresh s.moment
      rw [h.fresh, h.moment] at hserve'
      simp only [hserve, hserve']
      exact .of_ok ⟨rfl, h.of_agree hagree⟩
    | some category =>
      simp only [Api.serve_opens hopen]
      intro p hp
      obtain ⟨⟨reply, b⟩, hserve, he⟩ := bind_eq_ok_iff.mp hp
      obtain ⟨⟨sub, b₁⟩, hsub, hr⟩ := map_eq_ok_iff.mp hserve
      cases hr
      cases he
      obtain ⟨sub', b', hsub', -, halike⟩ := h.subscribe hs hs' hsub
      rw [hsub']
      exact ⟨_, rfl, congrArg (fun n => o.hide (.connected n)) h.sockets, halike⟩

/-- Whoever sends a request for a channel that is set apart goes unnoticed. -/
theorem http_unnoticed (hd : s.broker.Distinct) {r : RawRequest}
    (ha : (request? r false).any (Api.isApart o.channel) = true) :
    ∃ a t, s.http r = .ok (a, t) ∧ Alike o s t := by
  obtain ⟨req, hq, hreq⟩ := (Option.any_eq_true _ _).mp ha
  obtain ⟨response, b, hserve, hu⟩ := Api.serve_unnoticed hd hreq s.fresh s.moment
  simp only [Session.http, hq, hserve]
  exact ⟨_, _, rfl, .of_unnoticed hu⟩

theorem connect_unnoticed (hd : s.broker.Distinct) {path : String}
    (ha : (Step.connect path).request?.any (Api.isApart o.channel) = true) :
    ∃ a t, s.connect path = .ok (a, t) ∧ Alike o s t := by
  obtain ⟨req, hq, hreq⟩ := (Option.any_eq_true _ _).mp ha
  rw [Step.request?] at hq
  obtain ⟨response, b, hserve, hu⟩ := Api.serve_unnoticed hd hreq s.fresh s.moment
  simp only [Session.connect, hq, hserve]
  exact ⟨_, _, rfl, .of_unnoticed hu⟩

/-! ## Steps -/

/-- Taking a census changes nothing. -/
theorem act_census (hx : x.isCensus = true) : ∃ a, s.act x = .ok (a, s) := by
  cases x with
  | listChannels | subscriberCount | metrics => exact ⟨_, rfl⟩
  | http request =>
    obtain ⟨req, hq, hreq⟩ := (Option.any_eq_true _ _).mp hx
    rw [Step.request?] at hq
    obtain ⟨response, hserve⟩ :=
      Api.serve_census hreq s.broker s.fresh s.moment
    simp only [act, Session.http, hq, hserve]
    exact ⟨_, rfl⟩
  | connect path =>
    obtain ⟨req, hq, hreq⟩ := (Option.any_eq_true _ _).mp hx
    rw [Step.request?] at hq
    obtain ⟨response, hserve⟩ :=
      Api.serve_census hreq s.broker s.fresh s.moment
    simp only [act, Session.connect, hq, hserve]
    exact ⟨_, rfl⟩
  | _ => cases hx

/-- What an observer does is noticed by nobody else. -/
theorem act_unnoticed (hs : s.broker.gateway.Serves s.held) (hd : s.broker.Distinct)
    (hx : o.take x = true) : ∃ a t, s.act x = .ok (a, t) ∧ Alike o s t := by
  rw [Observers.take, Bool.or_eq_true, Bool.or_eq_true] at hx
  rcases hx with (hx | hx) | hx
  · cases x with
    | getChannel text =>
      exact ⟨_, _, rfl, .of_onChannel hx (fun id hid => hd.getChannel_unnoticed hid s.moment) _⟩
    | deleteChannel text =>
      exact ⟨_, _, rfl, .of_onChannel hx (fun id hid => hd.deleteChannel_unnoticed hid) _⟩
    | dequeue text =>
      exact ⟨_, _, rfl, .of_onChannel hx (fun id hid => hd.dequeue_unnoticed hid s.moment) _⟩
    | _ => cases hx
  · obtain ⟨l, hl, hlistener⟩ := (Option.any_eq_true _ _).mp hx
    obtain ⟨a, t, ha, ht⟩ := act_turned hs hl
    exact ⟨a, t, ha, ht.alike hlistener⟩
  · cases x with
    | http request => exact http_unnoticed hd hx
    | connect path => exact connect_unnoticed hd hx
    | _ => cases hx

theorem Alike.dropBroker (h : Alike o s s') (limit : Nat) :
    Agreed o (s.dropBroker limit) (s'.dropBroker limit) := by
  have hdrop : ∀ s : Session, ∀ l, { s with
      broker := (s.broker.channels.foldl Broker.closeChannel s.broker).drop }.view l =
        s.view l := by
    intro s l
    refine view_congr rfl rfl fun sub _ => ?_
    rw [foldl_closeChannel_eq]
    rfl
  have hviews : ∀ l, o.listener l = false →
      { s with broker := (s.broker.channels.foldl Broker.closeChannel s.broker).drop }.view l =
        { s' with
          broker := (s'.broker.channels.foldl Broker.closeChannel s'.broker).drop }.view l := by
    intro l hl
    rw [hdrop, hdrop, h.views l hl]
  unfold Session.dropBroker driverEnd
  cases hdriver : s.driver with
  | none =>
    have hdriver' : s'.driver = none := h.driver ▸ hdriver
    simp only [hdriver']
    exact ⟨rfl, { h with
      broker := h.broker.drop, driver := rfl, reapers := rfl, views := hviews }⟩
  | some deadline =>
    have hdriver' : s'.driver = some deadline := h.driver ▸ hdriver
    simp only [hdriver']
    refine ⟨?_, { h with
      broker := h.broker.drop, driver := rfl, reapers := rfl, moment := ?_, views := hviews }⟩
    · simp only [h.moment]
    · simp only [h.moment]

theorem Alike.act_subscribe (h : Alike o s s') (hs : s.broker.gateway.Serves s.held)
    (hs' : s'.broker.gateway.Serves s'.held) (category : String) :
    Follows o (s.act (.subscribe category)) (s'.act (.subscribe category)) := by
  intro p hok
  obtain ⟨⟨sub, b⟩, hsub, he⟩ := map_eq_ok_iff.mp hok
  cases he
  obtain ⟨sub', b', hsub', halike, -⟩ := h.subscribe hs hs' hsub
  refine ⟨_, map_eq_ok_iff.mpr ⟨_, hsub', rfl⟩, ?_, halike⟩
  simp only [h.subscriptions]

/-- A step that takes no time, that no observer takes and that takes no census. -/
theorem Alike.act (h : Alike o s s') (hp : s.Paced) (hp' : s'.Paced)
    (ht : ∀ ms, x ≠ .advance ms) (hx : o.take x = false) (hc : x.isCensus = false)
    (hd : s.broker.gateway.dropped = true → x.outlivesBroker = true) :
    Follows o (s.act x) (s'.act x) := by
  have hs := hp.streaming.serves
  have hs' := hp'.streaming.serves
  have halive : x.outlivesBroker = false → s.broker.gateway.dropped = false := by
    intro ho
    cases hdrop : s.broker.gateway.dropped with
    | true =>
      rw [hd hdrop] at ho
      cases ho
    | false => rfl
  rw [Observers.take, Bool.or_eq_false_iff, Bool.or_eq_false_iff] at hx
  obtain ⟨⟨hchannel, hlistener⟩, hrequest⟩ := hx
  cases hl : x.listener? with
  | some l =>
    rw [hl] at hlistener
    obtain ⟨a, t, ha, hturn⟩ := act_turned hs hl
    obtain ⟨a', t', ha', hturn'⟩ := act_turned hs' hl
    rw [ha, ha']
    exact .of_ok (h.turned hturn hturn' hlistener)
  | none =>
    cases x with
    | createQueue id => exact .of_ok (h.onBroker (h.broker.createQueue id) _)
    | listQueues => exact .of_ok ⟨congrArg (fun qs => o.hide (.queues qs)) h.broker.listQueues, h⟩
    | getQueue id => exact .of_ok (h.onBroker (h.broker.getQueue id) _)
    | deleteQueue id => exact .of_ok (h.onBroker (h.broker.deleteQueue id) _)
    | submit event =>
      simp only [Session.act, ← h.fresh]
      exact .of_ok (h.onBroker (h.broker.submit s.fresh.event event) _)
    | createChannel queues options =>
      simp only [Session.act, ← h.fresh, ← h.moment]
      exact .of_ok (h.onBroker
        (h.broker.createChannel s.fresh.channel queues options s.moment) _)
    | getChannel text =>
      simp only [Session.act, ← h.moment]
      exact .of_ok (h.onChannel hchannel (fun id hid => h.broker.getChannel hid s.moment) _)
    | deleteChannel text =>
      exact .of_ok (h.onChannel hchannel (fun id hid => h.broker.deleteChannel hid) _)
    | dequeue text =>
      simp only [Session.act, ← h.moment]
      exact .of_ok (h.onChannel hchannel (fun id hid => h.broker.dequeue hid s.moment) _)
    | reap timeout => exact .of_ok (h.reap hp.linked hp'.linked timeout h.moment)
    | fire now =>
      have hnow : now.getD s.moment.now = now.getD s'.moment.now := by rw [h.moment]
      exact .of_ok (h.fireDue hp.linked hp'.linked hs hs' (halive rfl) hnow h.moment)
    | now => exact .of_ok ⟨by rw [h.moment], h⟩
    | advance ms => exact absurd rfl (ht ms)
    | setWall ms =>
      have hm : s.moment.withWall ms = s'.moment.withWall ms := by rw [h.moment]
      exact .of_ok
        ⟨congrArg (fun m : Moment => o.hide (.number m.now)) hm, { h with moment := hm }⟩
    | subscribe category => exact h.act_subscribe hs hs' category
    | startDriver =>
      have hdriver : some s.moment.mono = some s'.moment.mono := by rw [h.moment]
      exact .of_ok ⟨rfl, { h with driver := hdriver }⟩
    | stopDriver => exact .of_ok ⟨rfl, { h with driver := rfl }⟩
    | startReaper timeout interval =>
      refine .of_ok ⟨rfl, { h with reapers := ?_ }⟩
      simp only [h.reapers, h.moment]
    | dropBroker limit => exact .of_ok (h.dropBroker limit)
    | http request => exact h.http hrequest hc
    | connect path => exact h.connect hs hs' hrequest hc
    | listChannels | subscriberCount | metrics => cases hc
    | receive | receiveOne | unsubscribe | readSocket | send | closeSocket => cases hl

end Session

end EventBroker
