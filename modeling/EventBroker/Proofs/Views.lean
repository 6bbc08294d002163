import EventBroker.Proofs.Alike
import EventBroker.Proofs.SessionStreams

/-! # What listeners see

The listeners of a session are its callers' subscriptions and its sockets. A listener sees the
category it listens to with what waits for it, and what a socket was sent: its `View`. No two
listeners share a subscription, so what one of them does changes no other's view. When the sockets
run, the view of each is forwarded, as `runSockets_view` says without following them one by one.
-/
set_option autoImplicit false

namespace EventBroker

namespace Broker

variable {apart : ChannelId → Bool} {b b' : Broker} {live rest : List Subscription}
  {sub : Subscription}

/-! ## Subscribers of brokers that look alike -/

/-- What changes for subscribers only. -/
theorem Alike.of_gateway (hb : b' = { b with gateway := b'.gateway, metrics := b'.metrics })
    (hm : b'.metrics.eventsScheduled = b.metrics.eventsScheduled)
    (hc : b'.gateway.capacity = b.gateway.capacity)
    (hd : b'.gateway.dropped = b.gateway.dropped) : Alike apart b b' := by
  rw [hb]
  exact { Alike.refl apart b with scheduled := hm.symm, capacity := hc.symm, dropped := hd.symm }

theorem Alike.of_sameService {gateway : Gateway DeliveredEvent}
    (h : Gateway.SameService b.gateway gateway) : Alike apart b { b with gateway } := by
  have hc : gateway.capacity = b.gateway.capacity := by rw [h.eq]
  have hd : gateway.dropped = b.gateway.dropped := by rw [h.eq]
  exact .of_gateway rfl rfl hc hd

theorem receive_alike (b : Broker) (sub : Subscription) (apart : ChannelId → Bool) :
    Alike apart b (b.receive sub).2 :=
  .of_sameService (Gateway.receive_sameService b.gateway sub)

theorem receiveUpTo_alike (b : Broker) (sub : Subscription) (max : Option Nat)
    (apart : ChannelId → Bool) : Alike apart b (b.receiveUpTo sub max).2 :=
  .of_sameService (Gateway.receiveUpTo_sameService b.gateway sub max)

/-- Whoever is served can leave, and the others stay as they were. -/
theorem exists_unsubscribe (h : b.gateway.Serves live) (hs : sub ∈ live) : ∃ b',
    b.unsubscribe sub = .ok b' ∧ b'.gateway.Serves (live.erase sub) ∧
      (∀ apart, Alike apart b b') ∧
      ∀ sub' ∈ live, sub' ≠ sub → b'.gateway.waiting sub' = b.gateway.waiting sub' := by
  obtain ⟨registered, g', hu, hserves, hwaiting, hdropped, hcapacity, -⟩ := h.unsubscribe hs
  refine ⟨if registered then b.withGateway g' else { b with gateway := g' }, ?_, ?_, ?_, ?_⟩
  · rw [Broker.unsubscribe, hu]
    rfl
  · cases registered <;> exact hserves
  · intro apart
    cases registered <;> exact .of_gateway rfl rfl hcapacity hdropped
  · cases registered <;> exact hwaiting

/-- Subscribing succeeds on both of two brokers that are alike, or on neither. -/
theorem Alike.subscribe (h : Alike apart b b') {category : String} {b₁ : Broker}
    (hs : b.subscribe category = .ok (sub, b₁)) :
    ∃ sub' b₁', b'.subscribe category = .ok (sub', b₁') ∧ Alike apart b₁ b₁' := by
  obtain ⟨⟨sub₀, g⟩, hg, he⟩ := Session.map_eq_ok_iff.mp hs
  cases he
  have hcapacity : ¬(b.gateway.capacity = 0 ∨ Gateway.maxCapacity < b.gateway.capacity) := by
    intro hbad
    rw [Gateway.subscribe, if_pos hbad] at hg
    cases hg
  have hg' : ∃ sub' g', b'.gateway.subscribe category = .ok (sub', g') := by
    rw [h.capacity] at hcapacity
    rw [Gateway.subscribe, if_neg hcapacity]
    exact ⟨_, _, rfl⟩
  obtain ⟨sub', g', hg'⟩ := hg'
  refine ⟨sub', b'.withGateway g', Session.map_eq_ok_iff.mpr ⟨_, hg', rfl⟩, ?_⟩
  have hspec := (Gateway.subscribe_spec hg).2
  have hspec' := (Gateway.subscribe_spec hg').2
  have hc : g.capacity = g'.capacity := by
    rw [hspec, hspec']
    simpa using h.capacity
  have hd : g.dropped = g'.dropped := by
    rw [hspec, hspec']
    simpa using h.dropped
  exact { h with capacity := hc, dropped := hd }

end Broker

/-- Who hears events in a session. -/
inductive Listener where
  | subscriber (index : Nat)
  | socket (index : Nat)
  deriving DecidableEq, Repr

/-- What a listener sees. -/
structure View where
  /-- Its category and what waits for it, as long as it has a subscription. -/
  heard : Option (String × List DeliveredEvent)
  /-- What has been sent to it and not been read, if it is a socket. -/
  sent : Option (Fifo Frame)

/-- A view after everything that waits for a socket has been sent there. -/
def View.forwarded (dropped : Bool) (v : View) : View :=
  match v.heard, v.sent with
  | some (category, waiting), some sent =>
    let sent := waiting.foldl (fun q e => q.push (.event (Api.StreamEvent.ofDelivered e))) sent
    if dropped then ⟨none, some (sent.push .over)⟩ else ⟨some (category, []), some sent⟩
  | _, _ => v

namespace Session
open Broker

/-- The subscription of a listener, as long as it has one. -/
def subscriptionOf? (s : Session) : Listener → Option Subscription
  | .subscriber index => s.subscription? index
  | .socket index => (s.sockets[index]?).bind (·.subscription)

def heard (s : Session) (l : Listener) : Option (String × List DeliveredEvent) :=
  (s.subscriptionOf? l).map fun sub => (sub.category, s.broker.gateway.waiting sub)

def sent? (s : Session) : Listener → Option (Fifo Frame)
  | .subscriber _ => none
  | .socket index => (s.sockets[index]?).map (·.sent)

def view (s : Session) (l : Listener) : View := ⟨s.heard l, s.sent? l⟩

/-- Only subscriptions, sockets and what waits for them have changed. -/
structure Streamed (s t : Session) : Prop where
  eq : t = { s with broker := t.broker, subscriptions := t.subscriptions, sockets := t.sockets }
  broker : ∀ apart, Broker.Alike apart s.broker t.broker
  subscriptions : t.subscriptions.length = s.subscriptions.length
  sockets : t.sockets.length = s.sockets.length

variable {s t : Session} {l l' : Listener} {sub : Subscription}

/-- Subscriptions of callers and of sockets are held apart. -/
theorem mem_of_subscriptionOf? (h : s.subscriptionOf? l = some sub) :
    match l with
    | .subscriber _ => sub ∈ s.subscriptions.flatMap Option.toList
    | .socket _ => sub ∈ s.sockets.flatMap (·.subscription.toList) := by
  cases l with
  | subscriber index =>
    have hk := Option.join_eq_some_iff.mp h
    exact List.mem_flatMap.mpr ⟨some sub, List.mem_of_getElem? hk, List.mem_singleton_self sub⟩
  | socket index =>
    obtain ⟨socket, hi, hsub⟩ := Option.bind_eq_some_iff.mp h
    have hm := Option.mem_toList.mpr hsub
    exact List.mem_flatMap (f := (·.subscription.toList)).mpr ⟨socket, List.mem_of_getElem? hi, hm⟩

theorem mem_held_of_subscriptionOf? (h : s.subscriptionOf? l = some sub) : sub ∈ s.held := by
  have hm := mem_of_subscriptionOf? h
  cases l with
  | subscriber index => exact List.mem_append_left _ hm
  | socket index => exact List.mem_append_right _ hm

/-- No two listeners share a subscription. -/
theorem eq_of_subscriptionOf? (h : s.held.Nodup) (hl : s.subscriptionOf? l = some sub)
    (hl' : s.subscriptionOf? l' = some sub) : l = l' := by
  obtain ⟨hcallers, hsockets, hdisjoint⟩ := List.nodup_append.mp h
  have hm := mem_of_subscriptionOf? hl
  have hm' := mem_of_subscriptionOf? hl'
  cases l with
  | subscriber i =>
    cases l' with
    | subscriber j =>
      rw [eq_of_nodup_flatMap hcallers (Option.join_eq_some_iff.mp hl)
        (Option.join_eq_some_iff.mp hl') (List.mem_singleton_self sub)
        (List.mem_singleton_self sub)]
    | socket j => exact absurd rfl (hdisjoint sub hm sub hm')
  | socket i =>
    cases l' with
    | subscriber j => exact absurd rfl (hdisjoint sub hm' sub hm)
    | socket j =>
      obtain ⟨socket, hi, hsub⟩ := Option.bind_eq_some_iff.mp hl
      obtain ⟨socket', hj, hsub'⟩ := Option.bind_eq_some_iff.mp hl'
      rw [eq_of_nodup_flatMap hsockets hi hj (Option.mem_toList.mpr hsub)
        (Option.mem_toList.mpr hsub')]

theorem subscription_ne (h : s.held.Nodup) (hne : l' ≠ l) (hl : s.subscriptionOf? l = some sub)
    {sub' : Subscription} (hl' : s.subscriptionOf? l' = some sub') : sub' ≠ sub := by
  rintro rfl
  exact hne (eq_of_subscriptionOf? h hl' hl)

/-- What is taken from one listener's mailbox is not taken from another's. -/
theorem mailbox_ne (h : s.broker.gateway.Serves s.held) (hne : l' ≠ l)
    (hl : s.subscriptionOf? l = some sub) {sub' : Subscription}
    (hl' : s.subscriptionOf? l' = some sub') : sub'.mailbox ≠ sub.mailbox := by
  intro he
  exact subscription_ne h.nodup hne hl hl' (h.eq_of_mailbox (mem_held_of_subscriptionOf? hl')
    (mem_held_of_subscriptionOf? hl) he)

theorem view_of_none (h : s.subscriptionOf? l = none) : s.view l = ⟨none, s.sent? l⟩ := by
  rw [view, heard, h, Option.map_none]

theorem view_of_some (h : s.subscriptionOf? l = some sub) :
    s.view l = ⟨some (sub.category, s.broker.gateway.waiting sub), s.sent? l⟩ := by
  rw [view, heard, h, Option.map_some]

/-- A listener to whom nothing happened sees what it saw. -/
theorem view_congr (hs : t.subscriptionOf? l = s.subscriptionOf? l) (hq : t.sent? l = s.sent? l)
    (hw : ∀ sub, s.subscriptionOf? l = some sub →
      t.broker.gateway.waiting sub = s.broker.gateway.waiting sub) : t.view l = s.view l := by
  cases hsub : s.subscriptionOf? l with
  | none => rw [view_of_none hsub, view_of_none (hs.trans hsub), hq]
  | some sub => rw [view_of_some hsub, view_of_some (hs.trans hsub), hq, hw sub hsub]

theorem view_socket {index : Nat} {socket : Socket} (hi : s.sockets[index]? = some socket) :
    s.view (.socket index) = ⟨socket.subscription.map fun sub =>
      (sub.category, s.broker.gateway.waiting sub), some socket.sent⟩ := by
  simp only [view, heard, subscriptionOf?, sent?, hi]
  rfl

/-! ## Running the sockets -/

variable {b b' : Broker} {rest : List Subscription} {socket : Socket}

/-- What a broker looks like when all that waited for some subscriptions was sent, and the rest of
the subscriptions were left alone. -/
structure Flushed (b : Broker) (flushed rest : List Subscription) (b' : Broker) : Prop where
  serves : b'.gateway.Serves (flushed ++ rest)
  alike : ∀ apart, Alike apart b b'
  empty : ∀ sub ∈ flushed, b'.gateway.waiting sub = []
  kept : ∀ sub ∈ rest, b'.gateway.waiting sub = b.gateway.waiting sub

end Session

/-- A socket after everything that waits for it has been sent. -/
def Socket.forwarded (g : Gateway DeliveredEvent) (socket : Socket) : Socket :=
  match socket.subscription with
  | none => socket
  | some sub =>
    let sent := (g.waiting sub).foldl
      (fun q e => q.push (.event (Api.StreamEvent.ofDelivered e))) socket.sent
    if g.dropped then ⟨none, sent.push .over⟩ else ⟨some sub, sent⟩

namespace Session
open Broker

variable {s t : Session} {b b' : Broker} {rest : List Subscription} {socket : Socket}

theorem endSocket_of_unsubscribe {sub : Subscription} (socket : Socket)
    (hsub : socket.subscription = some sub) (hu : b.unsubscribe sub = .ok b') :
    endSocket socket b = .ok (⟨none, socket.sent.push .over⟩, b') := by
  simp only [endSocket, hsub, hu]
  rfl

theorem exists_endSocket {sub : Subscription} (socket : Socket)
    (hsub : socket.subscription = some sub)
    (h : b.gateway.Serves (sub :: rest)) : ∃ b',
      endSocket socket b = .ok (⟨none, socket.sent.push .over⟩, b') ∧ Flushed b [] rest b' := by
  obtain ⟨b', hu, hserves, halike, hwaiting⟩ := exists_unsubscribe h List.mem_cons_self
  rw [List.erase_cons_head] at hserves
  refine ⟨b', endSocket_of_unsubscribe socket hsub hu, hserves, halike,
    fun _ hm => absurd hm List.not_mem_nil, fun sub' hm => ?_⟩
  have hne : sub' ≠ sub := by
    rintro rfl
    exact (List.nodup_cons.mp h.nodup).1 hm
  exact hwaiting sub' (List.mem_cons_of_mem _ hm) hne

theorem exists_forward (h : b.gateway.Serves (socket.subscription.toList ++ rest)) : ∃ b',
    forward socket b = .ok (socket.forwarded b.gateway, b') ∧
      Flushed b (socket.forwarded b.gateway).subscription.toList rest b' := by
  unfold forward Socket.forwarded
  cases hsub : socket.subscription with
  | none =>
    rw [hsub] at h
    refine ⟨b, rfl, ?_⟩
    rw [hsub]
    exact ⟨h, fun apart => .refl apart b, fun _ hm => absurd hm List.not_mem_nil, fun _ _ => rfl⟩
  | some sub =>
    rw [hsub, Option.toList_some, List.singleton_append] at h
    have hall : (b.receiveUpTo sub none).1 = b.gateway.waiting sub :=
      (b.gateway.receiveUpTo_answer sub none).trans List.take_length
    have hempty : (b.receiveUpTo sub none).2.gateway.waiting sub = [] :=
      (b.gateway.receiveUpTo_left sub none).trans List.drop_length
    have hothers := (b.gateway.receiveUpTo_waiting sub none).2
    have hserves : (b.receiveUpTo sub none).2.gateway.Serves (sub :: rest) :=
      (b.gateway.receiveUpTo_sameService sub none).serves h
    have hmailbox : ∀ sub' ∈ rest, sub'.mailbox ≠ sub.mailbox := by
      intro sub' hm he
      have hsame := h.eq_of_mailbox (List.mem_cons_of_mem _ hm) List.mem_cons_self he
      rw [hsame] at hm
      exact (List.nodup_cons.mp h.nodup).1 hm
    have hkept : ∀ sub' ∈ rest,
        (b.receiveUpTo sub none).2.gateway.waiting sub' = b.gateway.waiting sub' :=
      fun sub' hm => hothers sub' (hmailbox sub' hm)
    have halike := b.receiveUpTo_alike sub none
    simp only [receiveUpTo_dropped, hall]
    split
    · obtain ⟨b', he, hf⟩ := exists_endSocket ⟨some sub, _⟩ rfl hserves
      refine ⟨b', he, hf.serves, fun apart => (halike apart).trans (hf.alike apart), hf.empty,
        fun sub' hm => (hf.kept sub' hm).trans (hkept sub' hm)⟩
    · refine ⟨_, rfl, hserves, halike, fun sub' hm => ?_, hkept⟩
      rw [List.mem_singleton.mp hm]
      exact hempty

/-- A socket that was left alone sends later what it would have sent before. -/
theorem forwarded_congr {g g' : Gateway DeliveredEvent} (hd : g'.dropped = g.dropped)
    (hw : ∀ sub ∈ socket.subscription.toList, g'.waiting sub = g.waiting sub) :
    socket.forwarded g' = socket.forwarded g := by
  unfold Socket.forwarded
  cases hsub : socket.subscription with
  | none => rfl
  | some sub =>
    rw [hsub] at hw
    simp only [hw sub (List.mem_singleton_self sub), hd]

/-- The sockets run one after another. -/
theorem exists_forwards {sockets : List Socket} (done : List Socket)
    (h : b.gateway.Serves (sockets.flatMap (·.subscription.toList) ++ rest)) : ∃ b',
      sockets.foldlM (fun p socket => forward socket p.2 >>= fun q =>
        pure (p.1 ++ [q.1], q.2)) (done, b) =
          Except.ok (ε := Crash) (done ++ sockets.map (·.forwarded b.gateway), b') ∧
      Flushed b ((sockets.map (·.forwarded b.gateway)).flatMap (·.subscription.toList)) rest
        b' := by
  induction sockets generalizing b rest done with
  | nil =>
    refine ⟨b, by simp [pure, Except.pure], h, fun apart => .refl apart b,
      fun _ hm => absurd hm List.not_mem_nil, fun _ _ => rfl⟩
  | cons socket sockets ih =>
    rw [List.flatMap_cons, List.append_assoc] at h
    obtain ⟨b₁, hone, hfirst⟩ := exists_forward h
    have hserves := hfirst.serves.perm (List.perm_append_comm_assoc _ _ _)
    obtain ⟨b₂, hmore, hlast⟩ := ih (done ++ [socket.forwarded b.gateway]) hserves
    -- the sockets that come later were left alone
    have hsame : sockets.map (·.forwarded b₁.gateway) = sockets.map (·.forwarded b.gateway) := by
      apply List.map_congr_left
      intro later hm
      apply forwarded_congr (hfirst.alike fun _ => true).dropped.symm
      intro sub hsub
      exact hfirst.kept sub (List.mem_append_left _ (List.mem_flatMap.mpr ⟨later, hm, hsub⟩))
    rw [hsame] at hmore hlast
    refine ⟨b₂, ?_, ?_, fun apart => (hfirst.alike apart).trans (hlast.alike apart), ?_, ?_⟩
    · rw [List.foldlM_cons, bind_eq_ok_iff]
      refine ⟨_, bind_eq_ok_iff.mpr ⟨_, hone, rfl⟩, ?_⟩
      rw [hmore, List.append_assoc]
      rfl
    · rw [List.map_cons, List.flatMap_cons, List.append_assoc]
      exact hlast.serves.perm (List.perm_append_comm_assoc _ _ _)
    · intro sub hm
      rw [List.map_cons, List.flatMap_cons, List.mem_append] at hm
      rcases hm with hm | hm
      · exact (hlast.kept sub (List.mem_append_left _ hm)).trans (hfirst.empty sub hm)
      · exact hlast.empty sub hm
    · intro sub hm
      exact (hlast.kept sub (List.mem_append_right _ hm)).trans
        (hfirst.kept sub (List.mem_append_right _ hm))

/-- The socket's part of what is forwarded. -/
theorem view_forwarded {index : Nat} (hi : s.sockets[index]? = some socket)
    (ht : t.sockets[index]? = some (socket.forwarded s.broker.gateway))
    (hw : ∀ sub ∈ (socket.forwarded s.broker.gateway).subscription.toList,
      t.broker.gateway.waiting sub = []) :
    t.view (.socket index) =
      (s.view (.socket index)).forwarded s.broker.gateway.dropped := by
  unfold Socket.forwarded at ht hw
  cases hsub : socket.subscription with
  | none =>
    rw [hsub] at ht
    simp only [view, heard, subscriptionOf?, sent?, hi, ht, Option.bind_some, hsub]
    rfl
  | some sub =>
    rw [hsub] at ht hw
    cases hd : s.broker.gateway.dropped with
    | true =>
      simp only [hd, if_true] at ht
      simp only [view, heard, subscriptionOf?, sent?, hi, ht, Option.bind_some, hsub]
      rfl
    | false =>
      simp only [hd, Bool.false_eq_true, if_false] at ht hw
      simp only [view, heard, subscriptionOf?, sent?, hi, ht, Option.bind_some, hsub,
        Option.map_some, hw sub (List.mem_singleton_self sub)]
      rfl

/-- The sockets send what waits for them, and to nobody else anything happens. -/
theorem runSockets_view (h : s.broker.gateway.Serves s.held) : ∃ t, s.runSockets = .ok t ∧
    Streamed s t ∧ ∀ l, t.view l = (s.view l).forwarded s.broker.gateway.dropped := by
  obtain ⟨b', hr, hf⟩ := exists_forwards [] (h.perm List.perm_append_comm)
  refine ⟨{ s with sockets := s.sockets.map (·.forwarded s.broker.gateway), broker := b' },
    bind_eq_ok_iff.mpr ⟨_, hr, rfl⟩, ⟨rfl, hf.alike, rfl, List.length_map _⟩, fun l => ?_⟩
  cases l with
  | subscriber index =>
    have hsame : ∀ v : View, v.sent = none → v = v.forwarded s.broker.gateway.dropped := by
      rintro ⟨heard, sent⟩ rfl
      cases heard <;> rfl
    rw [← hsame (s.view (.subscriber index)) rfl]
    exact view_congr rfl rfl fun sub hsub => hf.kept sub (mem_of_subscriptionOf? hsub)
  | socket index =>
    cases hi : s.sockets[index]? with
    | none =>
      have hn : (s.sockets.map (·.forwarded s.broker.gateway))[index]? = none := by
        rw [List.getElem?_map, hi, Option.map_none]
      simp only [view, heard, subscriptionOf?, sent?, hi, hn]
      rfl
    | some socket =>
      have hi' : (s.sockets.map (·.forwarded s.broker.gateway))[index]? =
          some (socket.forwarded s.broker.gateway) := by
        rw [List.getElem?_map, hi, Option.map_some]
      apply view_forwarded hi hi'
      intro sub hsub
      exact hf.empty sub (List.mem_flatMap.mpr ⟨_, List.mem_of_getElem? hi', hsub⟩)

end Session

end EventBroker
