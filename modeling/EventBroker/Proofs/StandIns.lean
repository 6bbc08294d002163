import EventBroker.Proofs.Observers
import Mathlib.Data.List.InsertIdx

/-! # Stand-ins

A subscriber stands in for a socket if it has the subscription that was the socket's. A session
with a stand-in (`Session.seat`) goes on as the session without it does, when subscribers are
numbered as they are with one more among them (`Step.shift`): every step that is not the socket's
own does the same in both (`act_seat`), and so do the driver and the reapers. What the stand-in
hears is what the socket hears (`view_seat_own`).
-/
set_option autoImplicit false

namespace EventBroker

/-! ## Numbering -/

/-- The place of the `n`-th in a row after one more has come in as the `k`-th. -/
def shift (k n : Nat) : Nat := if n < k then n else n + 1

theorem shift_ne (k n : Nat) : shift k n ≠ k := by
  unfold shift
  split <;> omega

theorem exists_shift {k n : Nat} (h : n ≠ k) : ∃ n', n = shift k n' := by
  rcases Nat.lt_or_gt_of_ne h with hlt | hgt
  · exact ⟨n, (if_pos hlt).symm⟩
  · refine ⟨n - 1, ?_⟩
    rw [shift, if_neg (by omega)]
    omega

theorem shift_inj {k n n' : Nat} : shift k n = shift k n' ↔ n = n' := by
  unfold shift
  split <;> split <;> omega

section Lists

variable {α : Type} {l : List α} {k : Nat}

theorem getElem?_insertIdx_shift (l : List α) (k n : Nat) (a : α) :
    (l.insertIdx k a)[shift k n]? = l[n]? := by
  unfold shift
  split
  · next h => exact List.getElem?_insertIdx_of_lt h
  · rw [List.getElem?_insertIdx_of_gt (by omega), Nat.add_sub_cancel]

theorem getElem?_insertIdx_at (hk : k ≤ l.length) (a : α) : (l.insertIdx k a)[k]? = some a := by
  rw [List.getElem?_insertIdx_self, if_pos hk]

theorem set_insertIdx_shift (hk : k ≤ l.length) (n : Nat) (a b : α) :
    (l.insertIdx k a).set (shift k n) b = (l.set n b).insertIdx k a := by
  refine List.ext_getElem? fun m => ?_
  have hk' : k ≤ (l.set n b).length := by rwa [List.length_set]
  by_cases hm : m = k
  · rw [hm, List.getElem?_set_ne (shift_ne k n), getElem?_insertIdx_at hk,
      getElem?_insertIdx_at hk']
  · obtain ⟨m, rfl⟩ := exists_shift hm
    rw [getElem?_insertIdx_shift]
    by_cases hn : n = m
    · subst hn
      rw [List.getElem?_set, List.getElem?_set, if_pos rfl, if_pos rfl,
        List.length_insertIdx_of_le_length hk]
      have hlt : shift k n < l.length + 1 ↔ n < l.length := by
        unfold shift
        split <;> omega
      simp only [hlt]
    · rw [List.getElem?_set_ne (fun h => hn (shift_inj.mp h)), List.getElem?_set_ne hn,
        getElem?_insertIdx_shift]

theorem insertIdx_concat (hk : k ≤ l.length) (a b : α) :
    l.insertIdx k a ++ [b] = (l ++ [b]).insertIdx k a := by
  have hk' : k ≤ (l ++ [b]).length := by
    rw [List.length_append]
    omega
  refine List.ext_getElem? fun m => ?_
  by_cases hm : m = k
  · rw [hm, getElem?_insertIdx_at hk', List.getElem?_append_left, getElem?_insertIdx_at hk]
    rw [List.length_insertIdx_of_le_length hk]
    omega
  · obtain ⟨m, rfl⟩ := exists_shift hm
    have hlen := List.length_insertIdx_of_le_length hk a
    rw [getElem?_insertIdx_shift]
    by_cases hlt : m < l.length
    · rw [List.getElem?_append_left hlt, List.getElem?_append_left, getElem?_insertIdx_shift]
      rw [hlen]
      unfold shift
      split <;> omega
    · have hshift : shift k m = m + 1 := if_neg (by omega)
      rw [List.getElem?_append_right (by omega), List.getElem?_append_right (by omega), hlen,
        hshift, Nat.add_sub_add_right]

end Lists

namespace Step

/-- A step as it is taken where subscribers are numbered with one more among them, the `k`-th. -/
def shift (k : Nat) : Step → Step
  | .receive n max => .receive (EventBroker.shift k n) max
  | .receiveOne n => .receiveOne (EventBroker.shift k n)
  | .unsubscribe n => .unsubscribe (EventBroker.shift k n)
  | x => x

end Step

def Listener.shift (k : Nat) : Listener → Listener
  | .subscriber n => .subscriber (EventBroker.shift k n)
  | .socket i => .socket i

theorem Listener.shift_ne (k : Nat) (l : Listener) : l.shift k ≠ .subscriber k := by
  cases l with
  | subscriber n => exact fun he => EventBroker.shift_ne k n (Listener.subscriber.inj he)
  | socket i => exact fun he => by cases he

theorem Listener.exists_shift {k : Nat} {l : Listener} (h : l ≠ .subscriber k) :
    ∃ l' : Listener, l = l'.shift k := by
  cases l with
  | subscriber n =>
    obtain ⟨n', rfl⟩ := EventBroker.exists_shift fun hn => h (congrArg Listener.subscriber hn)
    exact ⟨.subscriber n', rfl⟩
  | socket i => exact ⟨.socket i, rfl⟩

namespace Session

/-- The session with one more subscriber, the `k`-th, and with the socket `i` disconnected. -/
def seat (i k : Nat) (h : Option Subscription) (s : Session) : Session :=
  { s with
    subscriptions := s.subscriptions.insertIdx k h
    sockets := s.sockets.set i ⟨none, .empty⟩ }

variable {i k : Nat} {h : Option Subscription} {s t : Session} {x : Step} {a : Answer}

/-! ## Steps -/

theorem subscription?_seat (s : Session) (n : Nat) :
    (s.seat i k h).subscription? (EventBroker.shift k n) = s.subscription? n := by
  unfold subscription?
  rw [show (s.seat i k h).subscriptions = s.subscriptions.insertIdx k h from rfl,
    getElem?_insertIdx_shift]

theorem getElem?_sockets_seat {j : Nat} (hj : j ≠ i) (s : Session) :
    (s.seat i k h).sockets[j]? = s.sockets[j]? :=
  List.getElem?_set_ne (Ne.symm hj)

theorem setSocket_seat {j : Nat} (hj : j ≠ i) (s : Session) (socket : Socket) :
    (s.seat i k h).setSocket j socket = (s.setSocket j socket).seat i k h := by
  simp only [setSocket, seat, List.set_comm _ _ hj.symm]

/-- A step on the broker does the same, whoever listens. -/
theorem onBroker_seat {α : Type} {accept : α → Answer} {outcome : Broker.Outcome α}
    (ha : s.onBroker accept outcome = (a, t)) :
    (s.seat i k h).onBroker accept outcome = (a, t.seat i k h) := by
  obtain ⟨result, b⟩ := outcome
  cases result <;> cases ha <;> rfl

theorem onChannel_seat {α : Type} {text : String} {accept : α → Answer}
    {run : ChannelId → Broker.Outcome α} (ha : s.onChannel text accept run = (a, t)) :
    (s.seat i k h).onChannel text accept run = (a, t.seat i k h) := by
  unfold onChannel at ha ⊢
  cases hp : ChannelId.parse? text with
  | none =>
    rw [hp] at ha
    cases ha
    rfl
  | some id =>
    rw [hp] at ha
    exact onBroker_seat ha

theorem http_seat {r : RawRequest} (ha : s.http r = .ok (a, t)) :
    (s.seat i k h).http r = .ok (a, t.seat i k h) := by
  unfold http at ha ⊢
  cases hq : request? r false with
  | none =>
    rw [hq] at ha
    cases ha
    rfl
  | some req =>
    rw [hq] at ha
    obtain ⟨⟨reply, b⟩, hserve, he⟩ := bind_eq_ok_iff.mp ha
    refine bind_eq_ok_iff.mpr ⟨(reply, b), hserve, ?_⟩
    cases reply <;> cases he <;> rfl

theorem connect_seat (hi : i < s.sockets.length) {path : String}
    (ha : s.connect path = .ok (a, t)) : (s.seat i k h).connect path = .ok (a, t.seat i k h) := by
  unfold connect at ha ⊢
  cases hq : request? ⟨"GET", "ws://localhost" ++ path, none, []⟩ true with
  | none =>
    rw [hq] at ha
    cases ha
    rfl
  | some req =>
    rw [hq] at ha
    obtain ⟨⟨reply, b⟩, hserve, he⟩ := bind_eq_ok_iff.mp ha
    refine bind_eq_ok_iff.mpr ⟨(reply, b), hserve, ?_⟩
    cases reply with
    | response r =>
      cases he
      rfl
    | stream sub =>
      cases he
      simp only [seat, List.length_set, List.set_append_left _ _ hi]
      rfl

theorem dropBroker_seat (s : Session) (limit : Nat) :
    (s.seat i k h).dropBroker limit =
      ((s.dropBroker limit).1, (s.dropBroker limit).2.seat i k h) := by
  unfold dropBroker driverEnd
  cases hd : s.driver with
  | none => simp only [seat, hd]
  | some deadline => simp only [seat, hd]

theorem readSocket_seat {j : Nat} (hj : j ≠ i) (s : Session) :
    (s.seat i k h).readSocket j = ((s.readSocket j).1, (s.readSocket j).2.seat i k h) := by
  unfold readSocket
  rw [getElem?_sockets_seat hj]
  cases s.sockets[j]? with
  | none => rfl
  | some socket => simp only [setSocket_seat hj]

theorem send_seat {j : Nat} (hj : j ≠ i) {message : Message}
    (ha : s.send j message = .ok (a, t)) :
    (s.seat i k h).send j message = .ok (a, t.seat i k h) := by
  unfold send at ha ⊢
  rw [getElem?_sockets_seat hj]
  cases hs : s.sockets[j]? with
  | none =>
    rw [hs] at ha
    cases ha
    rfl
  | some socket =>
    simp only [hs] at ha ⊢
    split
    · next hn =>
      rw [if_pos hn] at ha
      cases ha
      rfl
    · next hn =>
      rw [if_neg hn] at ha
      cases message with
      | text | binary =>
        cases ha
        rfl
      | ping text =>
        simp only at ha ⊢
        split
        · next hle =>
          rw [if_pos hle] at ha
          cases ha
          rw [setSocket_seat hj]
        · next hle =>
          rw [if_neg hle] at ha
          obtain ⟨⟨socket', b⟩, hend, he⟩ := map_eq_ok_iff.mp ha
          cases he
          refine map_eq_ok_iff.mpr ⟨(socket', b), hend, ?_⟩
          exact congrArg (Prod.mk _) (setSocket_seat hj { s with broker := b } socket')

theorem closeSocket_seat {j : Nat} (hj : j ≠ i) {abrupt : Bool}
    (ha : s.closeSocket j abrupt = .ok (a, t)) :
    (s.seat i k h).closeSocket j abrupt = .ok (a, t.seat i k h) := by
  unfold closeSocket at ha ⊢
  rw [getElem?_sockets_seat hj]
  cases hs : s.sockets[j]? with
  | none =>
    rw [hs] at ha
    cases ha
    rfl
  | some socket =>
    simp only [hs] at ha ⊢
    obtain ⟨⟨socket', b⟩, hend, he⟩ := bind_eq_ok_iff.mp ha
    cases he
    refine bind_eq_ok_iff.mpr ⟨(socket', b), hend, ?_⟩
    exact congrArg (fun t => Except.ok (Answer.closed, t))
      (setSocket_seat hj { s with broker := b } _)

/-- A step that takes no time and is not the socket's own does the same, whether somebody stands in
for the socket or not. -/
theorem act_seat (hk : k ≤ s.subscriptions.length) (hi : i < s.sockets.length)
    (ht : ∀ ms, x ≠ .advance ms) (hx : x.listener? ≠ some (.socket i))
    (ha : s.act x = .ok (a, t)) :
    ∃ a', (s.seat i k h).act (x.shift k) = .ok (a', t.seat i k h) := by
  have hsocket : ∀ j, some (Listener.socket j) ≠ some (Listener.socket i) → j ≠ i :=
    fun j hne hj => hne (by rw [hj])
  cases x with
  | createQueue | getQueue | deleteQueue | submit | createChannel =>
    exact ⟨a, congrArg Except.ok (onBroker_seat (Except.ok.inj ha))⟩
  | getChannel | deleteChannel | dequeue =>
    exact ⟨a, congrArg Except.ok (onChannel_seat (Except.ok.inj ha))⟩
  | listQueues | listChannels | reap | fire | now | setWall | subscriberCount | metrics
  | startDriver | stopDriver | startReaper =>
    cases ha
    exact ⟨_, rfl⟩
  | advance ms => exact absurd rfl (ht ms)
  | subscribe category =>
    obtain ⟨⟨sub, b⟩, hsub, he⟩ := map_eq_ok_iff.mp ha
    cases he
    refine ⟨.subscribed (s.seat i k h).subscriptions.length, map_eq_ok_iff.mpr ⟨_, hsub, ?_⟩⟩
    simp only [seat, insertIdx_concat hk]
  | receive n max =>
    simp only [act, Step.shift, subscription?_seat] at ha ⊢
    cases hn : s.subscription? n with
    | none =>
      rw [hn] at ha
      cases ha
      exact ⟨_, rfl⟩
    | some sub =>
      rw [hn] at ha
      cases ha
      exact ⟨_, rfl⟩
  | receiveOne n =>
    simp only [act, Step.shift, subscription?_seat] at ha ⊢
    cases hn : s.subscription? n with
    | none =>
      rw [hn] at ha
      cases ha
      exact ⟨_, rfl⟩
    | some sub =>
      rw [hn] at ha
      cases ha
      exact ⟨_, rfl⟩
  | unsubscribe n =>
    simp only [act, Step.shift, subscription?_seat] at ha ⊢
    cases hn : s.subscription? n with
    | none =>
      rw [hn] at ha
      cases ha
      exact ⟨_, rfl⟩
    | some sub =>
      rw [hn] at ha
      obtain ⟨b, hb, he⟩ := map_eq_ok_iff.mp ha
      cases he
      refine ⟨.dropped, map_eq_ok_iff.mpr ⟨b, hb, ?_⟩⟩
      simp only [seat, set_insertIdx_shift hk]
  | dropBroker limit =>
    rw [show t = (s.dropBroker limit).2 from (congrArg Prod.snd (Except.ok.inj ha)).symm]
    exact ⟨_, congrArg Except.ok (dropBroker_seat s limit)⟩
  | http request => exact ⟨a, http_seat ha⟩
  | connect path => exact ⟨a, connect_seat hi ha⟩
  | readSocket j =>
    rw [show t = (s.readSocket j).2 from (congrArg Prod.snd (Except.ok.inj ha)).symm]
    exact ⟨_, congrArg Except.ok (readSocket_seat (hsocket j hx) s)⟩
  | send j message => exact ⟨a, send_seat (hsocket j hx) ha⟩
  | closeSocket j abrupt => exact ⟨a, closeSocket_seat (hsocket j hx) ha⟩

theorem runDriver_seat (s : Session) : (s.seat i k h).runDriver = s.runDriver.seat i k h := by
  unfold runDriver
  cases hd : s.driver with
  | none => simp only [seat, hd]
  | some deadline =>
    simp only [seat, hd]
    split
    · rfl
    · rw [hd]

theorem runReapers_seat (s : Session) : (s.seat i k h).runReapers = s.runReapers.seat i k h := rfl

/-- Whoever is no listener changes nothing about a socket. -/
theorem act_socket (hi : i < s.sockets.length) (ht : ∀ ms, x ≠ .advance ms)
    (hx : x.listener? = none) (ha : s.act x = .ok (a, t)) : t.sockets[i]? = s.sockets[i]? := by
  cases x with
  | receive | receiveOne | unsubscribe | readSocket | send | closeSocket => cases hx
  | startDriver | stopDriver | startReaper =>
    cases ha
    rfl
  | dropBroker limit =>
    rw [show t = (s.dropBroker limit).2 from (congrArg Prod.snd (Except.ok.inj ha)).symm]
    simp only [dropBroker, driverEnd]
    split <;> rfl
  | http request =>
    simp only [act, http] at ha
    split at ha
    · cases ha
      rfl
    · obtain ⟨⟨reply, b⟩, -, he⟩ := bind_eq_ok_iff.mp ha
      cases reply <;> cases he <;> rfl
  | connect path =>
    simp only [act, connect] at ha
    split at ha
    · cases ha
      rfl
    · obtain ⟨⟨reply, b⟩, -, he⟩ := bind_eq_ok_iff.mp ha
      cases reply with
      | response =>
        cases he
        rfl
      | stream =>
        cases he
        exact List.getElem?_append_left hi
  | _ => rw [(act_acted ht rfl ha).sockets rfl]

/-! ## What is held and seen -/

/-- The subscription has only changed hands. -/
theorem held_seat (hk : k ≤ s.subscriptions.length) (hi : i < s.sockets.length) :
    (s.seat i k (s.subscriptionOf? (.socket i))).held.Perm s.held := by
  obtain ⟨socket, hsocket⟩ : ∃ socket, s.sockets[i]? = some socket :=
    ⟨_, List.getElem?_eq_getElem hi⟩
  obtain ⟨rest, hold, hnew⟩ := exists_flatMap_set (fun c : Socket => c.subscription.toList) hsocket
  have hsub : s.subscriptionOf? (.socket i) = socket.subscription := by
    simp only [subscriptionOf?, hsocket, Option.bind_some]
  have hcallers := (List.perm_insertIdx socket.subscription s.subscriptions hk).flatMap_right
    Option.toList
  rw [List.flatMap_cons] at hcallers
  unfold held
  rw [hsub]
  refine (hcallers.append (hnew ⟨none, .empty⟩)).trans ?_
  refine List.Perm.trans ?_ (hold.append_left _).symm
  rw [Option.toList_none, List.nil_append, List.append_assoc]
  exact List.perm_append_comm_assoc _ _ _

theorem Paced.seat (hp : s.Paced) (hk : k ≤ s.subscriptions.length) (hi : i < s.sockets.length) :
    (s.seat i k (s.subscriptionOf? (.socket i))).Paced where
  linked := hp.linked
  streaming := ⟨hp.streaming.serves.perm (held_seat hk hi).symm, hp.streaming.ended⟩
  ordered := hp.ordered
  positive := hp.positive
  near := hp.near
  reapers := hp.reapers

/-- Everyone but the socket sees what they saw. -/
theorem view_seat {l : Listener} (hl : l ≠ .socket i) (s : Session) :
    (s.seat i k h).view (l.shift k) = s.view l := by
  have hs : (s.seat i k h).subscriptionOf? (l.shift k) = s.subscriptionOf? l := by
    cases l with
    | subscriber n => exact subscription?_seat s n
    | socket j =>
      have hj : j ≠ i := fun he => hl (congrArg _ he)
      simp only [subscriptionOf?, Listener.shift, getElem?_sockets_seat hj]
  have hq : (s.seat i k h).sent? (l.shift k) = s.sent? l := by
    cases l with
    | subscriber n => rfl
    | socket j =>
      have hj : j ≠ i := fun he => hl (congrArg _ he)
      simp only [sent?, Listener.shift, getElem?_sockets_seat hj]
  rw [view, view, heard, heard, hs, hq]
  rfl

theorem view_seat_own (hk : k ≤ s.subscriptions.length) :
    (s.seat i k h).view (.subscriber k) =
      ⟨h.map fun sub => (sub.category, s.broker.gateway.waiting sub), none⟩ := by
  have hsub : (s.seat i k h).subscriptionOf? (.subscriber k) = h := by
    simp only [subscriptionOf?, subscription?, seat, getElem?_insertIdx_at hk, Option.join_some]
  rw [view, heard, hsub]
  rfl

end Session

end EventBroker
