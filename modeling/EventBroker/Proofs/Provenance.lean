import EventBroker.Proofs.ChannelHistory
import EventBroker.Proofs.DriverLoop
import EventBroker.Proofs.Publishing
import EventBroker.Proofs.SessionFrames

/-! # Where copies of an event come from

A copy of an event waits on the agenda, in the buffer of a channel, in a mailbox or at a socket, and
is handed from one to the other as it is. So what holds of every event that is armed, identifier and
payload together, holds of all copies at all times: `Session.Carries` is what a session keeps, and
`Carries.run` says that it does.
-/
set_option autoImplicit false

namespace EventBroker

/-! ## Mailboxes -/

namespace Gateway

variable {α : Type} {P : α → Prop} {g g' : Gateway α} {s : Subscription}

/-- Whether something holds of all that waits in the mailboxes. -/
def Holds (P : α → Prop) (g : Gateway α) : Prop :=
  ∀ box ∈ g.mailboxes, ∀ a ∈ box.messages.toList, P a

theorem Holds.new (capacity : Nat) : Holds P (Gateway.new capacity) := List.forall_mem_nil _

theorem Holds.waiting (h : g.Holds P) {a : α} (ha : a ∈ g.waiting s) : P a := by
  unfold Gateway.waiting at ha
  cases hm : g.mailbox? s with
  | none =>
    rw [hm] at ha
    cases ha
  | some box =>
    rw [hm] at ha
    exact h box (List.mem_of_find?_eq_some hm) a ha

theorem Holds.setMessages (h : g.Holds P) {messages : Fifo α} (hm : ∀ a ∈ messages.toList, P a) :
    (g.setMessages s messages).Holds P := by
  intro box hbox a ha
  obtain ⟨old, hold, rfl⟩ := List.mem_map.mp hbox
  split at ha
  · exact hm a ha
  · exact h old hold a ha

theorem Holds.subscribe (h : g.Holds P) {category : String}
    (hs : g.subscribe category = .ok (s, g')) : g'.Holds P := by
  unfold Gateway.subscribe at hs
  split at hs
  · cases hs
  · cases hs
    intro box hbox a ha
    simp only [putCategory_mailboxes, List.mem_append, List.mem_singleton] at hbox
    rcases hbox with hbox | rfl
    · exact h box hbox a ha
    · cases ha

theorem deregister_mailboxes {registered : Bool} (hs : g.deregister s = .ok (registered, g')) :
    g'.mailboxes = g.mailboxes := by
  unfold deregister at hs
  split at hs
  · cases hs
    rfl
  split at hs
  · cases hs
    rfl
  simp only at hs
  split at hs <;> split at hs
  · cases hs
  · cases hs
    rfl
  · cases hs
  · cases hs
    exact putCategory_mailboxes _ _

theorem Holds.unsubscribe (h : g.Holds P) {registered : Bool}
    (hs : g.unsubscribe s = .ok (registered, g')) : g'.Holds P := by
  have hboxes : g'.mailboxes = g.mailboxes.filter (·.serial != s.mailbox) := by
    unfold Gateway.unsubscribe at hs
    simp only at hs
    split at hs
    · cases hs
      rfl
    · exact deregister_mailboxes hs
  intro box hbox
  rw [hboxes] at hbox
  exact h box (List.mem_filter.mp hbox).1

/-- A message that is offered is all that is new in a mailbox. -/
theorem mem_offer {capacity n : Nat} {a : α} {boxes : List (Mailbox α)} {box : Mailbox α}
    (hbox : box ∈ (offer capacity a n boxes).2) :
    ∃ old ∈ boxes, ∀ a' ∈ box.messages.toList, a' = a ∨ a' ∈ old.messages.toList := by
  induction boxes with
  | nil => cases hbox
  | cons m rest ih =>
    unfold offer at hbox
    split at hbox
    · split at hbox
      · exact ⟨box, hbox, fun a' ha => .inr ha⟩
      · rcases List.mem_cons.mp hbox with rfl | hbox
        · refine ⟨m, List.mem_cons_self, fun a' ha => ?_⟩
          rw [Fifo.toList_push, List.mem_append, List.mem_singleton] at ha
          exact ha.symm
        · exact ⟨box, List.mem_cons_of_mem _ hbox, fun a' ha => .inr ha⟩
    · rcases List.mem_cons.mp hbox with rfl | hbox
      · exact ⟨box, List.mem_cons_self, fun a' ha => .inr ha⟩
      · obtain ⟨old, hold, ha⟩ := ih hbox
        exact ⟨old, List.mem_cons_of_mem _ hold, ha⟩

theorem Holds.publish (h : g.Holds P) (category : String) {a : α} (ha : P a) :
    (g.publish category a).2.Holds P := by
  have hdeal : ∀ (ns : List Nat) (dealt : Tally × List (Mailbox α)),
      (∀ box ∈ dealt.2, ∀ a ∈ box.messages.toList, P a) →
        ∀ box ∈ (ns.foldl (deal g.capacity a) dealt).2, ∀ a ∈ box.messages.toList, P a := by
    intro ns
    induction ns with
    | nil => exact fun _ hdealt => hdealt
    | cons n ns ih =>
      intro dealt hdealt
      refine ih _ fun box hbox a' ha' => ?_
      have hbox' : box ∈ (offer g.capacity a n dealt.2).2 := by
        unfold deal at hbox
        split at hbox <;> rename_i hoffer <;> rw [hoffer] <;> exact hbox
      obtain ⟨old, hold, hmem⟩ := mem_offer hbox'
      rcases hmem a' ha' with rfl | hmem
      · exact ha
      · exact hdealt old hold a' hmem
  cases hf : g.find? category with
  | none =>
    rw [publish_none hf]
    exact h
  | some c =>
    rw [publish_some hf]
    exact hdeal c.published _ h

theorem Holds.receive (h : g.Holds P) : (g.receive s).2.Holds P := by
  unfold Gateway.receive
  split
  · next a rest hpop =>
    refine h.setMessages fun a' ha => ?_
    obtain ⟨box, hbox, hpop⟩ := Option.bind_eq_some_iff.mp hpop
    refine h box (List.mem_of_find?_eq_some hbox) a' ?_
    rw [Fifo.toList_of_pop? hpop]
    exact List.mem_cons_of_mem _ ha
  · exact h

theorem Holds.receiveUpTo (h : g.Holds P) (max : Option Nat) :
    (g.receiveUpTo s max).2.Holds P := by
  unfold Gateway.receiveUpTo
  split
  · exact h
  · next box hbox =>
    refine h.setMessages fun a ha => ?_
    rw [Fifo.toList_ofList] at ha
    exact h box (List.mem_of_find?_eq_some hbox) a (List.mem_of_mem_drop ha)

/-- What is received has waited. -/
theorem Holds.received (h : g.Holds P) {a : α} (hr : (g.receive s).1 = .message a) : P a := by
  rw [receive_answer] at hr
  cases hw : g.waiting s with
  | nil =>
    rw [hw] at hr
    have he := g.whenEmpty_toList
    rw [show g.whenEmpty = .message a from hr] at he
    cases he
  | cons a' rest =>
    rw [hw] at hr
    cases hr
    exact h.waiting (s := s) (hw ▸ List.mem_cons_self)

theorem Holds.receivedUpTo (h : g.Holds P) {max : Option Nat} {a : α}
    (ha : a ∈ (g.receiveUpTo s max).1) : P a := by
  rw [receiveUpTo_answer] at ha
  exact h.waiting (List.mem_of_mem_take ha)

end Gateway

/-! ## Brokers -/

/-- What an action brings in: an event that is armed, or a rule that was taken off the agenda. -/
def Action.Gives (P : EventId → Payload → Prop) : Action → Prop
  | .arm id event _ => P id event.data
  | .fire rule => P rule.event.id rule.event.data
  | _ => True

namespace Broker

variable {P : EventId → Payload → Prop} {b b' : Broker} {d : Deed} {m : Moment}

/-- Something holds of all copies of events, identifier and payload together. -/
structure Carries (P : EventId → Payload → Prop) (b : Broker) : Prop where
  armed : ∀ rule ∈ b.agenda.rules, P rule.event.id rule.event.data
  buffered : ∀ c ∈ b.channels, ∀ e ∈ c.events.toList, P e.eventId e.data
  waiting : b.gateway.Holds fun e => P e.eventId e.data

theorem Carries.new {settings : BrokerSettings} (hb : Broker.new settings = .ok b) :
    b.Carries P := by
  rw [new_eq hb]
  exact ⟨List.forall_mem_nil _, List.forall_mem_nil _, .new _⟩

theorem number_event {event : ScheduledEvent} {order : Nat} {occurrences : List (Nat × Nat)}
    {rule : ArmedRule} (h : rule ∈ Agenda.number event order occurrences) : rule.event = event := by
  obtain ⟨⟨⟨target, fireAt⟩, k⟩, -, rfl⟩ := List.mem_map.mp h
  rfl

theorem Carries.perform_armed (h : b.Carries P) (hd : d.action.Gives P) :
    ∀ rule ∈ (b.perform d).agenda.rules, P rule.event.id rule.event.data := by
  obtain ⟨m, action⟩ := d
  intro rule hrule
  cases action with
  | cancelFor target => exact h.armed rule (Agenda.mem_cancel_iff.mp hrule).1
  | arm id event targets =>
    rcases Agenda.mem_arm_iff.mp hrule with hrule | hrule
    · exact h.armed rule hrule
    · rw [number_event hrule]
      exact hd
  | popDue now => exact h.armed rule (Agenda.mem_of_mem_left hrule)
  | drop => cases hrule
  | _ =>
    rw [(perform_framed b _).agenda rfl] at hrule
    exact h.armed rule hrule

theorem next_carries (h : b.Carries P) (hd : d.action.Gives P) {c : Channel} (hc : c ∈ b.channels) :
    ∀ e ∈ (c.next b d).events.toList, P e.eventId e.data := by
  obtain ⟨m, action⟩ := d
  intro e he
  cases action with
  | fire rule =>
    simp only [Channel.next] at he
    split at he
    · split at he
      · rw [Channel.offered_events, List.mem_append] at he
        rcases he with he | he
        · exact h.buffered c hc e he
        · split at he
          · rw [List.mem_singleton.mp he]
            exact hd
          · cases he
      · exact h.buffered c hc e he
    · exact h.buffered c hc e he
  | getChannel id =>
    simp only [Channel.next] at he
    split at he <;> exact h.buffered c hc e he
  | dequeue id =>
    simp only [Channel.next] at he
    split at he
    · cases he
    · exact h.buffered c hc e he
  | _ => exact h.buffered c hc e he

theorem Carries.perform_waiting (h : b.Carries P) (hd : d.action.Gives P) :
    (b.perform d).gateway.Holds fun e => P e.eventId e.data := by
  obtain ⟨m, action⟩ := d
  cases action with
  | fire rule =>
    simp only [perform]
    cases hf : b.firing? rule with
    | none =>
      rw [fire_of_not_firing? hf]
      exact h.waiting
    | some q =>
      rw [fire_gateway hf]
      exact h.waiting.publish _ hd
  | subscribe category =>
    simp only [perform]
    split
    · next hs =>
      obtain ⟨⟨sub, g⟩, hg, he⟩ := Session.map_eq_ok_iff.mp hs
      cases he
      exact h.waiting.subscribe hg
    · exact h.waiting
  | unsubscribe s =>
    simp only [perform]
    split
    · next hs =>
      obtain ⟨⟨registered, g⟩, hg, he⟩ := Session.map_eq_ok_iff.mp hs
      cases he
      cases registered <;> exact h.waiting.unsubscribe hg
    · exact h.waiting
  | receive s => exact h.waiting.receive
  | receiveUpTo s max => exact h.waiting.receiveUpTo max
  | drop =>
    simp only [perform]
    rw [foldl_closeChannel_eq]
    exact h.waiting
  | _ =>
    rw [(perform_framed b _).gateway rfl]
    exact h.waiting

theorem Carries.perform (h : b.Carries P) (hl : b.Linked) (hd : d.action.Gives P) :
    (b.perform d).Carries P where
  armed := h.perform_armed hd
  buffered := by
    intro c' hc'
    rcases hl.mem_next hc' with ⟨c, hc, rfl⟩ | ⟨id, queues, options, ts, -, rfl, -⟩
    · exact next_carries h hd hc
    · exact List.forall_mem_nil _
  waiting := h.perform_waiting hd

theorem Carries.replay (h : b.Carries P) (hl : b.Linked) {deeds : List Deed}
    (hd : ∀ d ∈ deeds, d.action.Gives P) : (b.replay deeds).Carries P := by
  induction deeds generalizing b with
  | nil => exact h
  | cons d rest ih =>
    rw [List.forall_mem_cons] at hd
    exact ih (h.perform hl hd.1) (hl.perform d) hd.2

end Broker

/-! ## Sessions -/

/-- The event that a deed arms, with its payload. -/
def Deed.armed? (d : Deed) : Option (EventId × Payload) :=
  match d.action with
  | .arm id event _ => some (id, event.data)
  | _ => none

/-- The events that deeds arm, with their payloads, oldest first. -/
def armings (deeds : List Deed) : List (EventId × Payload) := deeds.filterMap Deed.armed?

/-- Something holds of the events that a socket has sent and nobody has read: each shows a payload
as text. -/
def Socket.Carries (P : EventId → Payload → Prop) (socket : Socket) : Prop :=
  ∀ e, .event e ∈ socket.sent.toList →
    ∃ id data, P id data ∧ e.eventId = id.toText ∧ e.data = Utf8.toStringLossy data

namespace Session

variable {P : EventId → Payload → Prop} {s s' : Session} {x : Step} {a : Answer}

/-- Something holds of all copies of events in a session. -/
structure Carries (P : EventId → Payload → Prop) (s : Session) : Prop where
  linked : s.broker.Linked
  broker : s.broker.Carries P
  sent : ∀ socket ∈ s.sockets, socket.Carries P

theorem Carries.new {supply : IdSupply} {settings : BrokerSettings} {b : Broker} {m : Moment}
    (hb : Broker.new settings = .ok b) : (Session.new supply b m).Carries P :=
  ⟨Broker.Linked.new hb, .new hb, List.forall_mem_nil _⟩

theorem fire_mem_callerDeeds {m : Moment} {rule : ArmedRule}
    (hd : ⟨m, .fire rule⟩ ∈ s.callerDeeds x) : rule ∈ s.broker.agenda.rules := by
  cases hx : x.isDrop with
  | true =>
    cases x with
    | dropBroker limit =>
      have he := List.mem_singleton.mp hd
      cases he
    | _ => cases hx
  | false =>
    rcases callerDeeds_kind hx hd with h | ⟨⟨now, rfl⟩, -⟩ | ⟨-, h⟩
    · cases h
    · exact Agenda.mem_of_mem_due (due_of_fireDeeds hd).1
    · cases h

theorem fire_mem_driverDeeds {m : Moment} {rule : ArmedRule}
    (hd : ⟨m, .fire rule⟩ ∈ s.driverDeeds) : rule ∈ s.broker.agenda.rules := by
  unfold driverDeeds at hd
  split at hd
  · cases hd
  split at hd
  · exact (due_of_driverRunDeeds hd).1
  · cases hd

/-- What a caller arms is all that is new. -/
theorem Carries.callerDeeds (h : s.Carries P) (ha : ∀ e ∈ armings (s.callerDeeds x), P e.1 e.2) :
    ∀ d ∈ s.callerDeeds x, d.action.Gives P := by
  rintro ⟨m, action⟩ hd
  cases action with
  | arm id event targets => exact ha (id, event.data) (List.mem_filterMap.mpr ⟨_, hd, rfl⟩)
  | fire rule => exact h.broker.armed rule (fire_mem_callerDeeds hd)
  | _ => trivial

theorem Carries.driverDeeds (h : s.Carries P) : ∀ d ∈ s.driverDeeds, d.action.Gives P := by
  rintro ⟨m, action⟩ hd
  cases action with
  | arm id event targets => rcases driverDeeds_kind hd with hk | hk <;> cases hk
  | fire rule => exact h.broker.armed rule (fire_mem_driverDeeds hd)
  | _ => trivial

/-- The tasks arm nothing. -/
theorem armings_taskDeeds (s : Session) : armings s.taskDeeds = [] := by
  rw [armings, List.filterMap_eq_nil_iff]
  rintro ⟨m, action⟩ hd
  cases action with
  | arm id event targets =>
    simp only [taskDeeds, List.mem_append] at hd
    rcases hd with (hd | hd) | hd
    · rcases driverDeeds_kind hd with hk | hk <;> cases hk
    · obtain ⟨serial, he⟩ := reapersDeeds_kind hd
      cases he
    · obtain ⟨socket, -, sub, -, he | he⟩ := socketsDeeds_kind hd <;> cases he
  | _ => rfl

/-! ### The tasks -/

theorem endSocket_carries {socket socket' : Socket} {b b' : Broker} (hs : socket.Carries P)
    (he : endSocket socket b = .ok (socket', b')) : socket'.Carries P := by
  unfold endSocket at he
  split at he
  · cases he
    exact hs
  · obtain ⟨_, -, he⟩ := map_eq_ok_iff.mp he
    cases he
    intro e hmem
    rw [Fifo.toList_push, List.mem_append, List.mem_singleton] at hmem
    rcases hmem with hmem | hmem
    · exact hs e hmem
    · cases hmem

theorem forward_carries {socket socket' : Socket} {b b' : Broker} (hb : b.Carries P)
    (hs : socket.Carries P) (hf : forward socket b = .ok (socket', b')) : socket'.Carries P := by
  unfold forward at hf
  split at hf
  · cases hf
    exact hs
  · next sub _ =>
    have hsent : Socket.Carries P { socket with
        sent := (b.receiveUpTo sub none).1.foldl
          (fun q e => q.push (.event (Api.StreamEvent.ofDelivered e))) socket.sent } := by
      intro e he
      rw [toList_foldl_push, List.mem_append, List.mem_map] at he
      rcases he with he | ⟨e', he', heq⟩
      · exact hs e he
      · cases heq
        exact ⟨e'.eventId, e'.data, hb.waiting.receivedUpTo he', rfl, rfl⟩
    simp only at hf
    split at hf
    · exact endSocket_carries hsent hf
    · cases hf
      exact hsent

theorem forwardDeeds_gives {m : Moment} {socket : Socket} {b : Broker} {d : Deed}
    (hd : d ∈ forwardDeeds m socket b) : d.action.Gives P := by
  have hsockets : d ∈ socketsDeeds m [socket] b := by
    rw [socketsDeeds, List.mem_append]
    exact .inl hd
  obtain ⟨_, -, sub, -, rfl | rfl⟩ := socketsDeeds_kind hsockets <;> trivial

theorem runDriver_sockets (s : Session) : s.runDriver.sockets = s.sockets := by
  unfold runDriver
  split
  · rfl
  · split <;> rfl

theorem Carries.runSockets (h : s.Carries P) (hs : s.runSockets = .ok s') : s'.Carries P := by
  have hall : s.broker.Linked → s.broker.Carries P → (∀ socket ∈ s.sockets, socket.Carries P) →
      s'.broker.Linked ∧ s'.broker.Carries P ∧ ∀ socket ∈ s'.sockets, socket.Carries P := by
    refine runSockets_rec
      (P := fun sockets sockets' b b' => b.Linked → b.Carries P →
        (∀ socket ∈ sockets, socket.Carries P) →
          b'.Linked ∧ b'.Carries P ∧ ∀ socket ∈ sockets', socket.Carries P)
      (fun _ hl hb hall => ⟨hl, hb, hall⟩) ?_ hs
    intro socket socket' rest rest' b mid b' hforward ih hl hb hall
    rw [List.forall_mem_cons] at hall
    have hreplay := forward_replays s.moment hforward
    obtain ⟨hl', hb', hrest⟩ := ih (hreplay ▸ hl.replay _)
      (hreplay ▸ hb.replay hl fun d hd => forwardDeeds_gives hd) hall.2
    rw [List.forall_mem_cons]
    exact ⟨hl', hb', forward_carries hb hall.1 hforward, hrest⟩
  obtain ⟨hl, hb, hsent⟩ := hall h.linked h.broker h.sent
  exact ⟨hl, hb, hsent⟩

theorem Carries.settle (h : s.Carries P) (hs : s.settle = .ok s') : s'.Carries P := by
  have hdriver : s.runDriver.Carries P := by
    have hb := s.runDriver_broker
    refine ⟨hb ▸ h.linked.replay _, hb ▸ h.broker.replay h.linked h.driverDeeds, ?_⟩
    rw [runDriver_sockets]
    exact h.sent
  have hreapers : s.runDriver.runReapers.Carries P := by
    have hb := runReapers_broker hdriver.linked
    refine ⟨hb ▸ hdriver.linked.replay _, hb ▸ hdriver.broker.replay hdriver.linked ?_,
      hdriver.sent⟩
    intro d hd
    obtain ⟨serial, rfl⟩ := reapersDeeds_kind hd
    trivial
  exact hreapers.runSockets hs

theorem Carries.pass {n : Nat} (h : s.Carries P) (hp : s.pass n = .ok s') : s'.Carries P := by
  induction n generalizing s with
  | zero =>
    cases hp
    exact h
  | succ n ih =>
    obtain ⟨mid, hs, hrest⟩ := pass_succ_eq_ok_iff.mp hp
    have hnext : Carries P { s with moment := s.moment.after 1 } := ⟨h.linked, h.broker, h.sent⟩
    exact ih (hnext.settle hs) hrest

/-! ### Steps -/

theorem push_carries {socket : Socket} (hs : socket.Carries P) {f : Frame}
    (hf : ∀ e, f ≠ .event e) : Socket.Carries P { socket with sent := socket.sent.push f } := by
  intro e he
  rw [Fifo.toList_push, List.mem_append, List.mem_singleton] at he
  rcases he with he | he
  · exact hs e he
  · exact absurd he.symm (hf e)

theorem setSocket_carries {s : Session} {socket : Socket} {index : Nat}
    (h : ∀ socket ∈ s.sockets, socket.Carries P) (hs : socket.Carries P) :
    ∀ socket' ∈ (s.setSocket index socket).sockets, socket'.Carries P := by
  intro socket' hm
  rcases List.mem_or_eq_of_mem_set hm with hm | rfl
  · exact h socket' hm
  · exact hs

theorem connect_sent {path : String} (h : ∀ socket ∈ s.sockets, socket.Carries P)
    (ha : s.connect path = .ok (a, s')) : ∀ socket ∈ s'.sockets, socket.Carries P := by
  unfold connect at ha
  split at ha
  · cases ha
    exact h
  · obtain ⟨⟨reply, b⟩, -, he⟩ := bind_eq_ok_iff.mp ha
    cases reply with
    | response r =>
      cases he
      exact h
    | stream sub =>
      cases he
      rw [List.forall_mem_append, List.forall_mem_singleton]
      exact ⟨h, fun e hm => absurd hm List.not_mem_nil⟩

theorem readSocket_sent {index : Nat} (h : ∀ socket ∈ s.sockets, socket.Carries P) :
    ∀ socket ∈ (s.readSocket index).2.sockets, socket.Carries P := by
  rw [readSocket]
  split
  · exact h
  · exact setSocket_carries h fun e hm => absurd hm List.not_mem_nil

theorem send_sent {index : Nat} {message : Message} (h : ∀ socket ∈ s.sockets, socket.Carries P)
    (ha : s.send index message = .ok (a, s')) : ∀ socket ∈ s'.sockets, socket.Carries P := by
  unfold send at ha
  split at ha
  · cases ha
    exact h
  next socket hsocket =>
  have hs : socket.Carries P := h socket (List.mem_of_getElem? hsocket)
  split at ha
  · cases ha
    exact h
  split at ha
  · split at ha
    · cases ha
      exact setSocket_carries h (push_carries hs fun e => Frame.noConfusion)
    · obtain ⟨⟨socket', b⟩, hend, he⟩ := map_eq_ok_iff.mp ha
      cases he
      exact setSocket_carries h (endSocket_carries hs hend)
  · cases ha
    exact h
  · cases ha
    exact h

theorem closeSocket_sent {index : Nat} {abrupt : Bool} (h : ∀ socket ∈ s.sockets, socket.Carries P)
    (ha : s.closeSocket index abrupt = .ok (a, s')) : ∀ socket ∈ s'.sockets, socket.Carries P := by
  unfold closeSocket at ha
  split at ha
  · cases ha
    exact h
  · next socket hsocket =>
    have hs : socket.Carries P := h socket (List.mem_of_getElem? hsocket)
    obtain ⟨⟨socket', b⟩, hend, he⟩ := bind_eq_ok_iff.mp ha
    cases he
    have hfarewell : Socket.Carries P (if (socket.subscription.isSome && !abrupt) = true then
        { socket with sent := socket.sent.push .close } else socket) := by
      split
      · exact push_carries hs fun e => Frame.noConfusion
      · exact hs
    refine setSocket_carries h ?_
    split
    · exact fun e hm => absurd hm List.not_mem_nil
    · exact endSocket_carries hfarewell hend

/-- Only the tasks send events. -/
theorem act_sent (ht : ∀ ms, x ≠ .advance ms) (h : ∀ socket ∈ s.sockets, socket.Carries P)
    (ha : s.act x = .ok (a, s')) : ∀ socket ∈ s'.sockets, socket.Carries P := by
  have hout : ∀ {outcome : Answer × Session}, Except.ok (ε := Crash) outcome = .ok (a, s') →
      s' = outcome.2 := by
    rintro outcome ⟨⟩
    rfl
  by_cases hx : x.isFacade = true
  · have hd : x.isDrop = false := Step.isDrop_of_isDriver (Step.isDriver_of_isFacade hx)
    rw [(act_acted ht hd ha).sockets hx]
    exact h
  cases x with
  | startDriver | stopDriver | startReaper =>
    rw [hout ha]
    exact h
  | dropBroker limit =>
    rw [hout ha]
    simp only [dropBroker, driverEnd]
    split <;> exact h
  | http r =>
    simp only [Session.act, http] at ha
    split at ha
    · cases ha
      exact h
    · obtain ⟨⟨reply, b⟩, -, he⟩ := bind_eq_ok_iff.mp ha
      cases reply <;> cases he <;> exact h
  | connect path => exact connect_sent h ha
  | readSocket index =>
    rw [hout ha]
    exact readSocket_sent h
  | send index message => exact send_sent h ha
  | closeSocket index abrupt => exact closeSocket_sent h ha
  | _ => exact absurd rfl hx

theorem Carries.act (h : s.Carries P) (harm : ∀ e ∈ armings (s.callerDeeds x), P e.1 e.2)
    (ha : s.act x = .ok (a, s')) : s'.Carries P := by
  by_cases ht : ∃ ms, x = .advance ms
  · obtain ⟨ms, rfl⟩ := ht
    obtain ⟨t, hp, he⟩ := map_eq_ok_iff.mp ha
    cases he
    unfold advance at hp
    split at hp
    · exact h.pass hp
    · cases hp
      exact ⟨h.linked, h.broker, h.sent⟩
  · have ht' : ∀ ms, x ≠ .advance ms := fun ms he => ht ⟨ms, he⟩
    have hb := act_replays h.linked ht' ha
    exact ⟨hb ▸ h.linked.replay _, hb ▸ h.broker.replay h.linked (h.callerDeeds harm),
      act_sent ht' h.sent ha⟩

theorem Carries.step (h : s.Carries P) (harm : ∀ e ∈ armings (s.callerDeeds x), P e.1 e.2)
    (hs : s.step x = .ok (a, s')) : s'.Carries P := by
  obtain ⟨acted, ha, ht⟩ := step_eq_ok_iff.mp hs
  exact (h.act harm ha).settle ht

/-- What is armed in the course of a step is armed by the caller. -/
theorem armings_stepDeeds (s : Session) (x : Step) :
    armings (s.stepDeeds x) = armings (s.callerDeeds x) := by
  have htasks : ((s.beats x).flatMap taskDeeds).filterMap Deed.armed? = [] := by
    rw [List.filterMap_flatMap, List.flatMap_eq_nil_iff]
    exact fun found _ => armings_taskDeeds found
  rw [armings, stepDeeds, List.filterMap_append, htasks, List.append_nil, armings]

theorem armings_deeds_cons {s mid : Session} {x : Step} {a : Answer}
    (hx : s.step x = .ok (a, mid)) (rest : List Step) :
    armings (s.deeds (x :: rest)) = armings (s.callerDeeds x) ++ armings (mid.deeds rest) := by
  rw [deeds, hx, armings, List.filterMap_append, ← armings, ← armings, armings_stepDeeds]

/-- Each session of a run carries only what is armed in it. -/
theorem Carries.run {steps : List Step} {answers : List Answer} (h : s.Carries P)
    (harm : ∀ e ∈ armings (s.deeds steps), P e.1 e.2) (hr : s.run steps = .ok (answers, s')) :
    ∀ y ∈ s.trail steps, y.1.Carries P := by
  induction steps generalizing s answers with
  | nil => exact List.forall_mem_nil _
  | cons x rest ih =>
    obtain ⟨a, mid, later, hx, hr, -⟩ := run_cons_eq_ok_iff.mp hr
    rw [armings_deeds_cons hx, List.forall_mem_append] at harm
    rw [trail_eq hx, List.forall_mem_cons]
    exact ⟨h, ih (h.step harm.1 hx) harm.2 hr⟩

end Session

end EventBroker
