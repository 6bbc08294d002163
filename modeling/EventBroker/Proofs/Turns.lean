import EventBroker.Proofs.Views

/-! # Turns of listeners

A listener takes a turn when it receives, reads, sends or leaves. What that shows to it, and what it
sees afterwards, depends on what it saw before and on nothing else (`View.turn`); all other
listeners see what they saw, and the broker looks as before to all who do not listen. No turn ends
in a crash. `act_turned` says all this of every step that a listener takes.
-/
set_option autoImplicit false

namespace EventBroker

/-- Who takes a step, if it is a listener's. -/
def Step.listener? : Step → Option Listener
  | .receive index _ | .receiveOne index | .unsubscribe index => some (.subscriber index)
  | .readSocket index | .send index _ | .closeSocket index _ => some (.socket index)
  | _ => none

/-- What a step answers to the listener that takes it, and what that sees afterwards. -/
def View.turn (dropped : Bool) (v : View) : Step → Answer × View
  | .receive _ max =>
    match v.heard with
    | none => (.unknown, v)
    | some (category, waiting) =>
      let events := waiting.take (max.getD waiting.length)
      let ending : DrainEnd :=
        if max = some events.length then .full else if dropped then .disconnected else .empty
      (.drained events ending,
        { v with heard := some (category, waiting.drop (max.getD waiting.length)) })
  | .receiveOne _ =>
    match v.heard with
    | none => (.unknown, v)
    | some (category, waiting) =>
      let whenEmpty : Receipt DeliveredEvent := if dropped then .disconnected else .empty
      (.received ((waiting.head?.map .message).getD whenEmpty),
        { v with heard := some (category, waiting.tail) })
  | .unsubscribe _ =>
    match v.heard with
    | none => (.unknown, v)
    | some _ => (.dropped, { v with heard := none })
  | .readSocket _ =>
    match v.sent with
    | none => (.unknown, v)
    | some sent => (.frames sent.toList, { v with sent := some .empty })
  | .send _ message =>
    match v.sent, v.heard with
    | none, _ => (.unknown, v)
    | some _, none => (.sent false, v)
    | some sent, some _ =>
      match message with
      | .ping text =>
        (.sent true,
          if text.utf8ByteSize ≤ Session.maxPingBytes then
            { v with sent := some (sent.push (.pong text)) }
          else ⟨none, some (sent.push .over)⟩)
      | .text _ | .binary _ => (.sent true, v)
  | .closeSocket _ abrupt =>
    match v.sent, v.heard with
    | none, _ => (.unknown, v)
    | some sent, none => (.closed, ⟨none, some (if abrupt then .empty else sent)⟩)
    | some sent, some _ =>
      (.closed, ⟨none, some (if abrupt then .empty else (sent.push .close).push .over)⟩)
  | _ => (.unknown, v)

namespace Session
open Broker

/-- A step by which a listener takes its turn. -/
structure Turned (s : Session) (l : Listener) (x : Step) (a : Answer) (t : Session) : Prop
    extends Streamed s t where
  own : (a, t.view l) = (s.view l).turn s.broker.gateway.dropped x
  others : ∀ l', l' ≠ l → t.view l' = s.view l'

variable {s t : Session} {l : Listener} {x : Step} {a : Answer} {sub : Subscription}
  {index : Nat} {socket : Socket} {b : Broker}

theorem Streamed.refl (s : Session) : Streamed s s := ⟨rfl, fun apart => .refl apart _, rfl, rfl⟩

theorem Streamed.trans {u : Session} (h : Streamed s t) (h' : Streamed t u) : Streamed s u where
  eq := by rw [h'.eq, h.eq]
  broker apart := (h.broker apart).trans (h'.broker apart)
  subscriptions := h'.subscriptions.trans h.subscriptions
  sockets := h'.sockets.trans h.sockets

/-- Nothing happens but an answer. -/
theorem Turned.still (h : (a, s.view l) = (s.view l).turn s.broker.gateway.dropped x) :
    Turned s l x a s := ⟨.refl s, h, fun _ _ => rfl⟩

/-! ## Subscribers -/

theorem receive_turned (h : s.broker.gateway.Serves s.held) (index : Nat) (max : Option Nat) :
    ∃ a t, s.act (.receive index max) = .ok (a, t) ∧
      Turned s (.subscriber index) (.receive index max) a t := by
  cases hsub : s.subscriptionOf? (.subscriber index) with
  | none =>
    refine ⟨.unknown, s, ?_, .still ?_⟩
    · rw [act, show s.subscription? index = none from hsub]
    · rw [view_of_none hsub]
      rfl
  | some sub =>
    have hothers := (s.broker.gateway.receiveUpTo_waiting sub max).2
    refine ⟨(s.receive sub max).1, (s.receive sub max).2, ?_,
      ⟨rfl, s.broker.receiveUpTo_alike sub max, rfl, rfl⟩, ?_, fun l' hne => ?_⟩
    · rw [act, show s.subscription? index = some sub from hsub]
    · have hsub' : (s.receive sub max).2.subscriptionOf? (.subscriber index) = some sub := hsub
      rw [view_of_some hsub, view_of_some hsub']
      have hd := receiveUpTo_dropped s.broker sub max
      simp only [Broker.receiveUpTo] at hd
      simp only [View.turn, Session.receive, Broker.receiveUpTo, Gateway.receiveUpTo_answer,
        Gateway.receiveUpTo_left, hd]
      rfl
    · exact view_congr rfl rfl fun sub' hsub' => hothers sub' (mailbox_ne h hne hsub hsub')

theorem receiveOne_turned (h : s.broker.gateway.Serves s.held) (index : Nat) :
    ∃ a t, s.act (.receiveOne index) = .ok (a, t) ∧
      Turned s (.subscriber index) (.receiveOne index) a t := by
  cases hsub : s.subscriptionOf? (.subscriber index) with
  | none =>
    refine ⟨.unknown, s, ?_, .still ?_⟩
    · rw [act, show s.subscription? index = none from hsub]
    · rw [view_of_none hsub]
      rfl
  | some sub =>
    have hothers := (s.broker.gateway.receive_waiting sub).2
    refine ⟨.received (s.broker.receive sub).1, { s with broker := (s.broker.receive sub).2 }, ?_,
      ⟨rfl, s.broker.receive_alike sub, rfl, rfl⟩, ?_, fun l' hne => ?_⟩
    · rw [act, show s.subscription? index = some sub from hsub]
    · have hsub' : { s with broker := (s.broker.receive sub).2 }.subscriptionOf?
          (.subscriber index) = some sub := hsub
      rw [view_of_some hsub, view_of_some hsub']
      simp only [View.turn, Broker.receive, Gateway.receive_answer, Gateway.receive_left,
        Gateway.whenEmpty]
      rfl
    · exact view_congr rfl rfl fun sub' hsub' => hothers sub' (mailbox_ne h hne hsub hsub')

theorem unsubscribe_turned (h : s.broker.gateway.Serves s.held) (index : Nat) :
    ∃ a t, s.act (.unsubscribe index) = .ok (a, t) ∧
      Turned s (.subscriber index) (.unsubscribe index) a t := by
  cases hsub : s.subscriptionOf? (.subscriber index) with
  | none =>
    refine ⟨.unknown, s, ?_, .still ?_⟩
    · rw [act, show s.subscription? index = none from hsub]
    · rw [view_of_none hsub]
      rfl
  | some sub =>
    obtain ⟨b, hu, -, halike, hothers⟩ := exists_unsubscribe h (mem_held_of_subscriptionOf? hsub)
    refine ⟨.dropped, { s with broker := b, subscriptions := s.subscriptions.set index none }, ?_,
      ⟨rfl, halike, List.length_set, rfl⟩, ?_, fun l' hne => ?_⟩
    · rw [act, show s.subscription? index = some sub from hsub]
      simp only [hu]
      rfl
    · have hleft : { s with broker := b, subscriptions := s.subscriptions.set index none
          }.subscriptionOf? (.subscriber index) = none := by
        simp only [subscriptionOf?, subscription?, List.getElem?_set, if_true]
        split <;> rfl
      rw [view_of_some hsub, view_of_none hleft]
      rfl
    · have hsame : { s with broker := b, subscriptions := s.subscriptions.set index none
          }.subscriptionOf? l' = s.subscriptionOf? l' := by
        cases l' with
        | subscriber other =>
          have hother : index ≠ other := fun he => hne (congrArg Listener.subscriber he.symm)
          simp only [subscriptionOf?, subscription?, List.getElem?_set_ne hother]
        | socket other => rfl
      refine view_congr hsame rfl fun sub' hsub' => ?_
      exact hothers sub' (mem_held_of_subscriptionOf? hsub')
        (subscription_ne h.nodup hne hsub hsub')

/-! ## Sockets -/

/-- A socket is replaced, and what happens to the broker does not concern the other listeners. -/
theorem Turned.of_setSocket {socket' : Socket} (hi : s.sockets[index]? = some socket)
    (hb : ∀ apart, Broker.Alike apart s.broker b)
    (hw : ∀ l sub, l ≠ .socket index → s.subscriptionOf? l = some sub →
      b.gateway.waiting sub = s.broker.gateway.waiting sub)
    (hown : (a, (⟨socket'.subscription.map fun sub => (sub.category, b.gateway.waiting sub),
      some socket'.sent⟩ : View)) = (s.view (.socket index)).turn s.broker.gateway.dropped x) :
    Turned s (.socket index) x a ({ s with broker := b }.setSocket index socket') where
  eq := rfl
  broker := hb
  subscriptions := rfl
  sockets := List.length_set
  own := by
    have hlt : index < s.sockets.length := (List.getElem?_eq_some_iff.mp hi).1
    have hi' : ({ s with broker := b }.setSocket index socket').sockets[index]? = some socket' :=
      List.getElem?_set_self hlt
    rw [view_socket hi']
    exact hown
  others l' hne := by
    cases l' with
    | subscriber other => exact view_congr rfl rfl fun sub hsub => hw _ sub hne hsub
    | socket other =>
      have hother : index ≠ other := fun he => hne (congrArg Listener.socket he.symm)
      refine view_congr ?_ ?_ fun sub hsub => hw _ sub hne hsub
      · simp only [subscriptionOf?, setSocket, List.getElem?_set_ne hother]
      · simp only [sent?, setSocket, List.getElem?_set_ne hother]

/-- A socket ends without a crash. -/
theorem exists_endSocket_at (h : s.broker.gateway.Serves s.held)
    (hi : s.sockets[index]? = some socket) (hsub : socket.subscription = some sub) : ∃ b,
      (∀ socket' : Socket, socket'.subscription = some sub →
        endSocket socket' s.broker = .ok (⟨none, socket'.sent.push .over⟩, b)) ∧
      (∀ apart, Broker.Alike apart s.broker b) ∧
      ∀ l sub, l ≠ .socket index → s.subscriptionOf? l = some sub →
        b.gateway.waiting sub = s.broker.gateway.waiting sub := by
  have hl : s.subscriptionOf? (.socket index) = some sub := by
    simp only [subscriptionOf?, hi, Option.bind_some, hsub]
  obtain ⟨b, hu, -, halike, hothers⟩ := exists_unsubscribe h (mem_held_of_subscriptionOf? hl)
  refine ⟨b, fun socket' hs => endSocket_of_unsubscribe socket' hs hu, halike, ?_⟩
  intro l' sub' hne hsub'
  exact hothers sub' (mem_held_of_subscriptionOf? hsub') (subscription_ne h.nodup hne hl hsub')

theorem readSocket_turned (s : Session) (index : Nat) :
    ∃ a t, s.act (.readSocket index) = .ok (a, t) ∧
      Turned s (.socket index) (.readSocket index) a t := by
  cases hi : s.sockets[index]? with
  | none =>
    refine ⟨.unknown, s, ?_, .still ?_⟩
    · simp only [act, readSocket, hi]
    · simp only [View.turn, view, sent?, hi, Option.map_none]
  | some socket =>
    refine ⟨.frames socket.sent.toList, s.setSocket index { socket with sent := .empty }, ?_,
      .of_setSocket hi (fun apart => .refl apart _) (fun _ _ _ _ => rfl) ?_⟩
    · simp only [act, readSocket, hi]
    · rw [view_socket hi]
      rfl

theorem send_turned (h : s.broker.gateway.Serves s.held) (index : Nat) (message : Message) :
    ∃ a t, s.act (.send index message) = .ok (a, t) ∧
      Turned s (.socket index) (.send index message) a t := by
  simp only [act, Session.send]
  cases hi : s.sockets[index]? with
  | none =>
    refine ⟨.unknown, s, rfl, .still ?_⟩
    simp only [View.turn, view, sent?, hi, Option.map_none]
  | some socket =>
    cases hsub : socket.subscription with
    | none =>
      refine ⟨.sent false, s, by simp [hsub], .still ?_⟩
      rw [view_socket hi, hsub]
      rfl
    | some sub =>
      simp only [hsub, Option.isNone_some, Bool.false_eq_true, if_false]
      cases message with
      | ping text =>
        by_cases hsize : text.utf8ByteSize ≤ maxPingBytes
        · simp only [hsize, if_true]
          refine ⟨_, _, rfl,
            .of_setSocket hi (fun apart => .refl apart _) (fun _ _ _ _ => rfl) ?_⟩
          rw [view_socket hi, hsub]
          simp only [View.turn, hsize, if_true]
          rfl
        · obtain ⟨b, he, halike, hw⟩ := exists_endSocket_at h hi hsub
          simp only [hsize, if_false, he socket hsub]
          refine ⟨_, _, rfl, .of_setSocket hi halike hw ?_⟩
          rw [view_socket hi, hsub]
          simp only [View.turn, hsize, if_false]
          rfl
      | text | binary =>
        refine ⟨.sent true, s, rfl, .still ?_⟩
        rw [view_socket hi, hsub]
        rfl

theorem closeSocket_turned (h : s.broker.gateway.Serves s.held) (index : Nat) (abrupt : Bool) :
    ∃ a t, s.act (.closeSocket index abrupt) = .ok (a, t) ∧
      Turned s (.socket index) (.closeSocket index abrupt) a t := by
  simp only [act, Session.closeSocket]
  cases hi : s.sockets[index]? with
  | none =>
    refine ⟨.unknown, s, rfl, .still ?_⟩
    simp only [View.turn, view, sent?, hi, Option.map_none]
  | some socket =>
    cases hsub : socket.subscription with
    | none =>
      have he : endSocket socket s.broker = .ok (socket, s.broker) := by
        simp only [endSocket, hsub]
      simp only [hsub, Option.isSome_none, Bool.false_and, Bool.false_eq_true, if_false, he]
      refine ⟨_, _, rfl, .of_setSocket hi (fun apart => .refl apart _) (fun _ _ _ _ => rfl) ?_⟩
      rw [view_socket hi, hsub]
      cases abrupt with
      | true =>
        simp only [if_true]
        rfl
      | false =>
        simp only [Bool.false_eq_true, if_false, hsub]
        rfl
    | some sub =>
      obtain ⟨b, he, halike, hw⟩ := exists_endSocket_at h hi hsub
      cases abrupt with
      | true =>
        simp only [hsub, Bool.not_true, Bool.and_false, Bool.false_eq_true, if_false, if_true,
          he socket hsub]
        refine ⟨_, _, rfl, .of_setSocket hi halike hw ?_⟩
        rw [view_socket hi, hsub]
        rfl
      | false =>
        have hclose := he ⟨some sub, socket.sent.push .close⟩ rfl
        simp only [hsub, Option.isSome_some, Bool.not_false, Bool.and_true, Bool.false_eq_true,
          if_true, if_false, hclose]
        refine ⟨_, _, rfl, .of_setSocket hi halike hw ?_⟩
        rw [view_socket hi, hsub]
        rfl

/-- Every turn. -/
theorem act_turned (h : s.broker.gateway.Serves s.held) (hx : x.listener? = some l) :
    ∃ a t, s.act x = .ok (a, t) ∧ Turned s l x a t := by
  cases x with
  | receive index max =>
    cases hx
    exact receive_turned h index max
  | receiveOne index =>
    cases hx
    exact receiveOne_turned h index
  | unsubscribe index =>
    cases hx
    exact unsubscribe_turned h index
  | readSocket index =>
    cases hx
    exact readSocket_turned s index
  | send index message =>
    cases hx
    exact send_turned h index message
  | closeSocket index abrupt =>
    cases hx
    exact closeSocket_turned h index abrupt
  | _ => cases hx

end Session

end EventBroker
