import EventBroker.Proofs.SocketStreams
import EventBroker.Proofs.Wire

/-! # Accepted sockets

A socket that has just been accepted has a subscription to the category of its path, and nothing has
been sent to it. Whoever subscribes to that category next goes along with it from then on
(`AtRest.joins`), and so what the socket is told is what such a subscriber fetches
(`sockets_subscribe`).
-/
set_option autoImplicit false

namespace EventBroker

theorem Broker.subscribe_alike {b b' : Broker} {category : String} {sub : Subscription}
    (h : b.subscribe category = .ok (sub, b')) (apart : ChannelId → Bool) :
    Alike apart b b' := by
  obtain ⟨⟨sub', g⟩, hg, he⟩ := Session.map_eq_ok_iff.mp h
  cases he
  have hspec := (Gateway.subscribe_spec hg).2
  refine .of_gateway rfl rfl ?_ ?_
  · simp [Broker.withGateway, hspec]
  · simp [Broker.withGateway, hspec]

namespace Session
open Broker

variable {i k : Nat} {s s' t : Session} {x : Step} {a : Answer} {category path : String}

/-! ## The list of sockets -/

/-- What a session looks like when a socket has just been accepted. -/
structure Accepted (i : Nat) (category : String) (s : Session) : Prop extends AtRest s where
  alive : s.broker.gateway.dropped = false
  there : i < s.sockets.length
  fresh : s.view (.socket i) = ⟨some (category, []), some .empty⟩
  vacant : ∃ sub b, s.broker.subscribe category = .ok (sub, b)

/-- A stream is opened by its path. -/
theorem path_of_opens {req : Http.Request} (hreq : (Step.connect path).request? = some req)
    (ho : Api.opens? req = some category) : ∃ target raw,
      Http.pathOf? ("ws://localhost" ++ path) = some target ∧
      Api.Resource.ofPath? target = some (.stream raw) ∧
      Percent.decodeText? raw = some category := by
  simp only [Step.request?, request?] at hreq
  cases htarget : Http.pathOf? ("ws://localhost" ++ path) with
  | none => simp [htarget] at hreq
  | some target =>
    simp only [htarget, Option.ite_none_right_eq_some, Option.some.injEq] at hreq
    obtain ⟨-, rfl⟩ := hreq
    unfold Api.opens? at ho
    split at ho
    · next raw hraw =>
      exact ⟨target, raw, rfl, hraw, (Option.ite_none_right_eq_some.mp ho).2⟩
    · cases ho

theorem AtRest.connect (h : s.AtRest)
    (hx : s.broker.gateway.dropped = true → (Step.connect path).outlivesBroker = true)
    (hs : s.step (.connect path) = .ok (.connected i, s')) : ∃ target raw category,
      Http.pathOf? ("ws://localhost" ++ path) = some target ∧
      Api.Resource.ofPath? target = some (.stream raw) ∧
      Percent.decodeText? raw = some category ∧ Accepted i category s' := by
  obtain ⟨acted, ha, hsettle⟩ := step_eq_ok_iff.mp hs
  obtain ⟨b, -, hn⟩ | ⟨req, category, sub, b, hreq, hopens, hsub, hi, rfl⟩ := connect_cases ha
  · cases hn
  cases hi
  have hd : s.broker.gateway.dropped = false :=
    Bool.eq_false_iff.mpr fun hd => Bool.noConfusion (hx hd)
  have halike := subscribe_alike hsub fun _ => false
  obtain ⟨_, hu, hstreamed, hview⟩ := (h.acted hx ha).settle_idle
    (h.idle.congr rfl rfl rfl halike.wakeup.symm)
  rw [hsettle] at hu
  cases hu
  have hall := halike.trans (hstreamed.broker _)
  obtain ⟨sub', b', hsub', -⟩ := hall.subscribe hsub
  obtain ⟨target, raw, htarget, hraw, hcategory⟩ := path_of_opens hreq hopens
  refine ⟨target, raw, category, htarget, hraw, hcategory, h.step hx hs, ?_, ?_, ?_,
    sub', b', hsub'⟩
  · rw [← hall.dropped, hd]
  · rw [hstreamed.sockets, List.length_append]
    exact Nat.lt_succ_self _
  · rw [hview, view_connected h.streaming.serves hsub, if_pos rfl, ← halike.dropped, hd]
    rfl

/-- Subscribers keep their numbers where one more comes last. -/
theorem view_shift (s : Session) (l : Listener) :
    s.view (l.shift s.subscriptions.length) = s.view l := by
  cases l with
  | socket j => rfl
  | subscriber n =>
    by_cases hn : n < s.subscriptions.length
    · rw [Listener.shift, shift, if_pos hn]
    · have hnone : ∀ m, s.subscriptions.length ≤ m →
          s.subscriptionOf? (.subscriber m) = none := fun m hm => by
        simp [subscriptionOf?, subscription?, List.getElem?_eq_none hm]
      have hle := Nat.le_of_not_lt hn
      rw [Listener.shift, shift, if_neg hn, view_of_none (hnone n hle),
        view_of_none (hnone (n + 1) (Nat.le_succ_of_le hle))]
      rfl

/-- Whoever subscribes to the category of a new socket goes along with it. -/
theorem Accepted.joins (h : Accepted i category s) : ∃ t,
    s.step (.subscribe category) = .ok (.subscribed s.subscriptions.length, t) ∧ t.AtRest ∧
      Accompanies i s.subscriptions.length (s.heard (.socket i)) s t := by
  obtain ⟨sub, b, hsub⟩ := h.vacant
  have hx : s.broker.gateway.dropped = true → (Step.subscribe category).outlivesBroker = true := by
    rw [h.alive]
    exact fun hf => Bool.noConfusion hf
  have ha : s.act (.subscribe category) = .ok (.subscribed s.subscriptions.length,
      { s with broker := b, subscriptions := s.subscriptions ++ [some sub] }) :=
    map_eq_ok_iff.mpr ⟨_, hsub, rfl⟩
  have halike := subscribe_alike hsub fun _ => false
  obtain ⟨t, ht, hstreamed, hview⟩ := (h.toAtRest.acted hx ha).settle_idle
    (h.idle.congr rfl rfl rfl halike.wakeup.symm)
  have hstep : s.step (.subscribe category) = .ok (.subscribed s.subscriptions.length, t) :=
    step_eq_ok_iff.mpr ⟨_, ha, ht⟩
  have hviews : ∀ l, t.view l = if l = .subscriber s.subscriptions.length
      then ⟨some (category, []), none⟩ else s.view l := by
    intro l
    rw [hview, view_subscribed h.streaming.serves hsub, ← halike.dropped]
    split
    · rfl
    · exact h.flushed l
  refine ⟨t, hstep, h.toAtRest.step hx hstep, ?_⟩
  exact {
    supply := by rw [hstreamed.eq]
    moment := by rw [hstreamed.eq]
    driver := by rw [hstreamed.eq]
    reapers := by rw [hstreamed.eq]
    broker := halike.trans (hstreamed.broker _)
    subscriptions := by
      rw [hstreamed.subscriptions, List.length_append]
      rfl
    sockets := hstreamed.sockets.symm
    room := Nat.le_refl _
    there := h.there
    others := fun l _ => by
      rw [hviews, if_neg (Listener.shift_ne _ l), view_shift]
    own := by
      rw [hviews, if_pos rfl, show s.heard (.socket i) = _ from congrArg View.heard h.fresh] }

end Session

end EventBroker
