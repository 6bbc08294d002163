import EventBroker.Proofs.Listening
import EventBroker.Proofs.StandIns

/-! # A subscriber beside a socket

Two sessions are alike, but the second has one more subscriber, who goes along with a socket: it
hears what the socket hears (`Accompanies`). Steps of others and tasks keep it so. When the tasks
run, what waits for the socket is sent there, and what waits for the subscriber stays until it is
fetched: `Accompanies.settle` gives what both are told, `Accompanies.drain` fetches it.
-/
set_option autoImplicit false

namespace EventBroker

/-- What waits for a listener who hears something or nothing. -/
def waitingIn (heard : Option (String × List DeliveredEvent)) : List DeliveredEvent :=
  (heard.map (·.2)).getD []

/-- What a listener hears when it has fetched everything. -/
def drained (heard : Option (String × List DeliveredEvent)) :
    Option (String × List DeliveredEvent) := heard.map fun p => (p.1, [])

namespace Session

/-- Everyone but a socket. -/
def aside (i : Nat) : Observers := ⟨fun _ => false, fun l => decide (l = .socket i)⟩

/-- The second session is the first with one more subscriber, the `k`-th, of whom it is given what
it hears. About the socket `i` nothing is said. -/
structure Accompanies (i k : Nat) (line : Option (String × List DeliveredEvent))
    (s t : Session) : Prop where
  supply : s.supply = t.supply
  moment : s.moment = t.moment
  driver : s.driver = t.driver
  reapers : s.reapers = t.reapers
  broker : Broker.Alike (fun _ => false) s.broker t.broker
  subscriptions : s.subscriptions.length + 1 = t.subscriptions.length
  sockets : s.sockets.length = t.sockets.length
  room : k ≤ s.subscriptions.length
  there : i < s.sockets.length
  others : ∀ l, l ≠ .socket i → s.view l = t.view (l.shift k)
  own : t.view (.subscriber k) = ⟨line, none⟩

variable {i k : Nat} {line line' : Option (String × List DeliveredEvent)} {s s' t t' : Session}
  {x : Step} {a : Answer}

theorem aside_listener {l : Listener} : (aside i).listener l = false ↔ l ≠ .socket i := by
  simp [aside]

/-- The subscriber stands in for the socket. -/
theorem Accompanies.seat (h : Accompanies i k (s.heard (.socket i)) s t) :
    Alike (aside i) (s.seat i k (s.subscriptionOf? (.socket i))) t where
  supply := h.supply
  moment := h.moment
  driver := h.driver
  reapers := h.reapers
  broker := h.broker
  subscriptions := (List.length_insertIdx_of_le_length h.room _).trans h.subscriptions
  sockets := List.length_set.trans h.sockets
  views l hl := by
    by_cases hk : l = .subscriber k
    · rw [hk, view_seat_own h.room, h.own]
      rfl
    · obtain ⟨l, rfl⟩ := Listener.exists_shift hk
      have hne : l ≠ .socket i := by
        rintro rfl
        exact aside_listener.mp hl rfl
      rw [view_seat hne, h.others l hne]

theorem Accompanies.of_seat {h : Option Subscription} (hk : k ≤ s.subscriptions.length)
    (hi : i < s.sockets.length) (ha : Alike (aside i) (s.seat i k h) t) :
    Accompanies i k (h.map fun sub => (sub.category, s.broker.gateway.waiting sub)) s t where
  supply := ha.supply
  moment := ha.moment
  driver := ha.driver
  reapers := ha.reapers
  broker := ha.broker
  subscriptions := (List.length_insertIdx_of_le_length hk _).symm.trans ha.subscriptions
  sockets := List.length_set.symm.trans ha.sockets
  room := hk
  there := hi
  others l hl := by
    rw [← view_seat (h := h) hl s]
    refine ha.views _ (aside_listener.mpr ?_)
    cases l with
    | subscriber n => exact fun he => by cases he
    | socket j => exact hl
  own := by
    rw [← ha.views _ (aside_listener.mpr fun he => by cases he), view_seat_own hk]

/-- What happens to subscriptions only. -/
theorem Accompanies.streamed (h : Accompanies i k line s t) (hs : Streamed s s')
    (ht : Streamed t t') (ho : ∀ l, l ≠ .socket i → s'.view l = t'.view (l.shift k))
    (hl : t'.view (.subscriber k) = ⟨line', none⟩) : Accompanies i k line' s' t' where
  supply := by rw [hs.eq, ht.eq, h.supply]
  moment := by rw [hs.eq, ht.eq, h.moment]
  driver := by rw [hs.eq, ht.eq, h.driver]
  reapers := by rw [hs.eq, ht.eq, h.reapers]
  broker := ((hs.broker _).symm.trans h.broker).trans (ht.broker _)
  subscriptions := by rw [hs.subscriptions, ht.subscriptions, h.subscriptions]
  sockets := by rw [hs.sockets, ht.sockets, h.sockets]
  room := by
    rw [hs.subscriptions]
    exact h.room
  there := by
    rw [hs.sockets]
    exact h.there
  others := ho
  own := hl

/-! ## What others do -/

theorem aside_take (hx : x.listener? ≠ some (.socket i)) : (aside i).take x = false := by
  have hchannel : ∀ o : Option ChannelId, o.any (aside i).channel = false := fun o => by
    cases o <;> rfl
  have hlistener : x.listener?.any (aside i).listener = false := by
    cases hl : x.listener? with
    | none => rfl
    | some l => exact aside_listener.mpr fun he => hx (he ▸ hl)
  have hrequest : x.request?.any (Api.isApart (aside i).channel) = false := by
    cases x.request? with
    | none => rfl
    | some req => exact Api.isApart_of_none req
  rw [Observers.take, hchannel, hlistener, hrequest]
  rfl

theorem listener?_shift (hx : x.listener? ≠ some (.socket i)) :
    (x.shift k).listener? ≠ some (.socket i) := by
  cases x with
  | receive | receiveOne | unsubscribe => exact fun he => by cases he
  | _ => exact hx

theorem listener?_shift_of_some {l : Listener} (hl : x.listener? = some l) :
    (x.shift k).listener? = some (l.shift k) := by
  cases x with
  | receive | receiveOne | unsubscribe | readSocket | send | closeSocket =>
    cases hl
    rfl
  | _ => cases hl

theorem outlivesBroker_shift (k : Nat) (x : Step) :
    (x.shift k).outlivesBroker = x.outlivesBroker := by
  cases x <;> rfl

theorem advance_of_shift {ms : Nat} (hx : x.shift k = .advance ms) : x = .advance ms := by
  cases x <;> first | exact hx | cases hx

/-- A step of others that takes no time does the same in a session that is alike. -/
theorem Alike.act_aside (h : Alike (aside i) s t) (hs : s.Paced) (ht : t.Paced)
    (hadv : ∀ ms, x ≠ .advance ms) (hx : x.listener? ≠ some (.socket i))
    (hd : s.broker.gateway.dropped = true → x.outlivesBroker = true)
    (ha : s.act x = .ok (a, s')) : ∃ a' t', t.act x = .ok (a', t') ∧ Alike (aside i) s' t' := by
  by_cases hc : x.isCensus = true
  · obtain ⟨a₁, ha₁⟩ := act_census (s := s) hc
    obtain ⟨a', ha'⟩ := act_census (s := t) hc
    rw [ha] at ha₁
    cases ha₁
    exact ⟨a', t, ha', h⟩
  · rw [Bool.not_eq_true] at hc
    obtain ⟨⟨a', t'⟩, ha', hagreed⟩ := h.act hs ht hadv (aside_take hx) hc hd (a, s') ha
    exact ⟨a', t', ha', hagreed.alike⟩

/-- What others do that take no time reaches a socket only as new events, and just so whoever stands
in for it. -/
theorem act_heard_aside (hs : s.Paced) (hk : k ≤ s.subscriptions.length)
    (hi : i < s.sockets.length) (hadv : ∀ ms, x ≠ .advance ms)
    (hx : x.listener? ≠ some (.socket i)) (ha : s.act x = .ok (a, s')) :
    k ≤ s'.subscriptions.length ∧ i < s'.sockets.length ∧
      s'.sent? (.socket i) = s.sent? (.socket i) ∧
      s'.heard (.socket i) = (s.subscriptionOf? (.socket i)).map fun sub =>
        (sub.category, s'.broker.gateway.waiting sub) := by
  cases hl : x.listener? with
  | some l =>
    have hne : l ≠ .socket i := fun he => hx (he ▸ hl)
    obtain ⟨a₁, s₁, ha₁, hturned⟩ := act_turned hs.streaming.serves hl
    rw [ha] at ha₁
    cases ha₁
    have hview := hturned.others (.socket i) hne.symm
    refine ⟨hturned.subscriptions ▸ hk, hturned.sockets ▸ hi, congrArg View.sent hview, ?_⟩
    -- the stand-in holds the subscription, and it is not its turn
    obtain ⟨a₀, hseat⟩ := act_seat (h := s.subscriptionOf? (.socket i)) hk hi hadv hx ha
    obtain ⟨a₁, u, hu, hseated⟩ :=
      act_turned (hs.seat hk hi).streaming.serves (listener?_shift_of_some hl)
    rw [hseat] at hu
    cases hu
    have hown := hseated.others (.subscriber k) (Ne.symm (Listener.shift_ne k l))
    rw [view_seat_own hk, view_seat_own (hturned.subscriptions ▸ hk)] at hown
    exact (congrArg View.heard hview).trans (congrArg View.heard hown).symm
  | none =>
    have hsocket := act_socket hi hadv hl ha
    have hsub : s'.subscriptionOf? (.socket i) = s.subscriptionOf? (.socket i) := by
      simp only [subscriptionOf?, hsocket]
    refine ⟨?_, ?_, by simp only [sent?, hsocket], by rw [heard, hsub]⟩
    · rcases act_subscriptions_cases ha with he | ⟨_, _, -, -, he⟩ | ⟨_, he⟩
      · rwa [he]
      · rw [he, List.length_append]
        omega
      · rwa [he, List.length_set]
    · rw [List.getElem?_eq_getElem hi] at hsocket
      exact (List.getElem?_eq_some_iff.mp hsocket).1

/-- A step of others that takes no time does the same beside the subscriber. It neither changes what
has been sent to the socket nor connects it again. -/
theorem Accompanies.act (h : Accompanies i k (s.heard (.socket i)) s t) (hs : s.Paced)
    (ht : t.Paced) (hadv : ∀ ms, x ≠ .advance ms) (hx : x.listener? ≠ some (.socket i))
    (hd : s.broker.gateway.dropped = true → x.outlivesBroker = true)
    (ha : s.act x = .ok (a, s')) : ∃ a' t', t.act (x.shift k) = .ok (a', t') ∧
      Accompanies i k (s'.heard (.socket i)) s' t' ∧ s'.sent? (.socket i) = s.sent? (.socket i) ∧
      (s.heard (.socket i) = none → s'.heard (.socket i) = none) := by
  have hk := h.room
  have hi := h.there
  obtain ⟨a₀, hseat⟩ := act_seat (h := s.subscriptionOf? (.socket i)) hk hi hadv hx ha
  obtain ⟨hk', hi', hsent, hheard⟩ := act_heard_aside hs hk hi hadv hx ha
  obtain ⟨a', t', ha', halike⟩ := h.seat.act_aside (hs.seat hk hi) ht
    (fun ms he => hadv ms (advance_of_shift he)) (listener?_shift hx)
    (fun hdropped => (outlivesBroker_shift k x).trans (hd hdropped)) hseat
  refine ⟨a', t', ha', hheard ▸ .of_seat hk' hi' halike, hsent, fun hn => ?_⟩
  rw [hheard, Option.map_eq_none_iff]
  exact Option.map_eq_none_iff.mp hn

/-! ## What the tasks do -/

/-- Before the sockets run, what the socket hears is what the subscriber hears. -/
theorem Accompanies.runTasks (h : Accompanies i k (s.heard (.socket i)) s t) (hs : s.Paced)
    (ht : t.Paced) : Accompanies i k (s.runDriver.runReapers.heard (.socket i))
      s.runDriver.runReapers t.runDriver.runReapers := by
  have hseat := hs.seat h.room h.there
  have hlinked : ∀ {u : Session}, u.Paced → u.runDriver.broker.Linked := fun {u} hu =>
    u.runDriver_broker ▸ hu.linked.replay _
  have halike := (h.seat.runDriver hseat ht).runReapers (hlinked hseat) (hlinked ht)
  rw [runDriver_seat, runReapers_seat] at halike
  obtain ⟨hsubscriptions, hsockets⟩ := s.runTasks_lists
  rw [heard, subscriptionOf?_runTasks]
  exact .of_seat (hsubscriptions ▸ h.room) (hsockets ▸ h.there) halike

/-- The tasks send to the socket what waits for it; for the subscriber it goes on waiting. -/
theorem Accompanies.settle (h : Accompanies i k (s.heard (.socket i)) s t) (hs : s.Paced)
    (ht : t.Paced) : ∃ line s' t', s.settle = .ok s' ∧ s'.AtRest ∧ t.settle = .ok t' ∧ t'.AtRest ∧
      Accompanies i k line s' t' ∧
      s'.view (.socket i) =
        (View.mk line (s.sent? (.socket i))).forwarded s.broker.gateway.dropped ∧
      (s.heard (.socket i) = none → line = none) := by
  have hrun := h.runTasks hs ht
  obtain ⟨s', hs', hrest⟩ := hs.settle
  obtain ⟨t', ht', hrest'⟩ := ht.settle
  obtain ⟨hstreamed, hview⟩ := settle_views hs.streaming hs.linked hs'
  obtain ⟨hstreamed', hview'⟩ := settle_views ht.streaming ht.linked ht'
  have hdropped : s.runDriver.runReapers.broker.gateway.dropped =
      t.runDriver.runReapers.broker.gateway.dropped := hrun.broker.dropped
  refine ⟨s.runDriver.runReapers.heard (.socket i), _, _, hs', hrest, ht', hrest',
    hrun.streamed hstreamed hstreamed' ?_ ?_, ?_, ?_⟩
  · intro l hl
    rw [hview, hview', hrun.others l hl, hdropped]
  · rw [hview', hrun.own]
    cases s.runDriver.runReapers.heard (.socket i) <;> rfl
  · rw [hview, runTasks_dropped hs.streaming]
    rw [view, sent?_runTasks]
  · intro hn
    rw [heard, subscriptionOf?_runTasks, Option.map_eq_none_iff]
    exact Option.map_eq_none_iff.mp hn

/-! ## What the subscriber does -/

/-- The subscriber fetches what waits for it. -/
theorem Accompanies.drain (h : Accompanies i k line s t) (ht : t.AtRest) : ∃ a t',
    t.step (.receive k none) = .ok (a, t') ∧ t'.AtRest ∧
      receivedBy k (.receive k none, a) = waitingIn line ∧
      Accompanies i k (drained line) s t' := by
  obtain ⟨a, t', hstep, hstreamed, ha, hown, hothers⟩ :=
    ht.step_turned (x := .receive k none) (l := .subscriber k) rfl
  refine ⟨a, t', hstep, ht.step (fun _ => rfl) hstep, ?_, h.streamed (.refl s) hstreamed ?_ ?_⟩
  · rw [ha, h.own]
    cases line with
    | none => rfl
    | some p => simp [View.turn, receivedBy, waitingIn]
  · intro l hl
    rw [h.others l hl, hothers _ (Listener.shift_ne k l)]
  · rw [hown, h.own]
    cases line with
    | none => rfl
    | some p => simp [View.turn, View.forwarded, drained]

/-- The subscriber leaves. -/
theorem Accompanies.leave (h : Accompanies i k line s t) (ht : t.AtRest) : ∃ a t',
    t.step (.unsubscribe k) = .ok (a, t') ∧ t'.AtRest ∧ Accompanies i k none s t' := by
  obtain ⟨a, t', hstep, hstreamed, -, hown, hothers⟩ :=
    ht.step_turned (x := .unsubscribe k) (l := .subscriber k) rfl
  refine ⟨a, t', hstep, ht.step (fun _ => rfl) hstep, h.streamed (.refl s) hstreamed ?_ ?_⟩
  · intro l hl
    rw [h.others l hl, hothers _ (Listener.shift_ne k l)]
  · rw [hown, h.own]
    cases line <;> rfl

end Session

end EventBroker
