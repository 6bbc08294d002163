import EventBroker.Proofs.AlikeTasks

/-! # Who is present

Listeners come and go by steps that say so: a subscriber is made and leaves, a socket is accepted
and its connection ends. From the steps and their answers one can tell who is `present`. Nothing
else registers anybody, or leaves anybody registered: at rest those who are present are those who
hold a subscription (`Roster`), and as long as the broker is there, that is what it counts
(`run_subscriberCount`).
-/
set_option autoImplicit false

namespace EventBroker

/-- Whether a step ends the connection of a socket. -/
def Step.endsSocket (i : Nat) : Step → Bool
  | .closeSocket j _ => j = i
  | .send j (.ping text) => j = i && Session.maxPingBytes < text.utf8ByteSize
  | .dropBroker _ => true
  | _ => false

/-- Whether a listener is gone after a step. -/
def Step.ends (x : Step) : Listener → Bool
  | .subscriber k => match x with
    | .unsubscribe j => j = k
    | _ => false
  | .socket i => x.endsSocket i

/-- The listener that is new, according to an answer. -/
def Answer.joined? : Answer → Option Listener
  | .subscribed k => some (.subscriber k)
  | .connected i => some (.socket i)
  | _ => none

/-- Who is present after a step, if some were before. -/
def attend (before : List Listener) (y : Step × Answer) : List Listener :=
  before.filter (fun l => !y.1.ends l) ++ y.2.joined?.toList

/-- Who is present after some steps: the subscribers that were made and have not left, and the
sockets that were accepted and have not been closed by either side. -/
def present (steps : List Step) (answers : List Answer) : List Listener :=
  (steps.zip answers).foldl attend []

namespace Session
open Broker

variable {s s' : Session} {x : Step} {a : Answer} {l : Listener} {roster : List Listener}

/-- Whether a listener hears anything. -/
def hears (s : Session) (l : Listener) : Bool := (s.heard l).isSome

theorem hears_eq (s : Session) (l : Listener) : s.hears l = (s.subscriptionOf? l).isSome := by
  rw [hears, heard, Option.isSome_map]

theorem hears_congr (h : s'.view l = s.view l) : s'.hears l = s.hears l := by
  rw [hears, hears, show s'.heard l = s.heard l from congrArg View.heard h]

/-- Whoever holds a subscription hears something. -/
theorem hears_of_lists (hs : s'.subscriptions = s.subscriptions)
    (hk : s'.sockets.map (·.subscription) = s.sockets.map (·.subscription)) (l : Listener) :
    s'.hears l = s.hears l := by
  rw [hears_eq, hears_eq]
  cases l with
  | subscriber => simp only [subscriptionOf?, subscription?, hs]
  | socket i =>
    have hmap : ∀ t : Session, t.subscriptionOf? (.socket i) =
        ((t.sockets.map (·.subscription))[i]?).join := fun t => by
      rw [List.getElem?_map, subscriptionOf?]
      cases t.sockets[i]? <;> rfl
    rw [hmap, hmap, hk]

/-! ## The tasks -/

theorem isSome_heard_forwarded (v : View) : (v.forwarded false).heard.isSome = v.heard.isSome := by
  obtain ⟨heard, sent⟩ := v
  cases heard with
  | none => rfl
  | some p => cases sent <;> rfl

/-- While the broker is there, the tasks end no connection. -/
theorem settle_hears (h : s.Streaming) (hl : s.broker.Linked)
    (hd : s.broker.gateway.dropped = false) (hs : s.settle = .ok s') (l : Listener) :
    s'.hears l = s.hears l := by
  obtain ⟨-, hview⟩ := settle_views h hl hs
  have hheard : s'.heard l = _ := congrArg View.heard (hview l)
  rw [runTasks_dropped h, hd] at hheard
  rw [hears, hheard, isSome_heard_forwarded, hears_eq, ← subscriptionOf?_runTasks]
  exact hears_eq _ l

theorem pass_hears {n : Nat} (h : s.AtRest) (hd : s.broker.gateway.dropped = false)
    (hp : pass n s = .ok s') (l : Listener) : s'.hears l = s.hears l := by
  induction n generalizing s with
  | zero =>
    cases hp
    rfl
  | succ n ih =>
    obtain ⟨mid, hs, hrest⟩ := pass_succ_eq_ok_iff.mp hp
    have hmid := h.tick.rest_of_settle hs
    have hdropped := (settle_leads h.tick.streaming h.tick.linked hs).1.dropped
      h.tick.streaming.serves fun d hd => taskDeeds_drop hd
    rw [ih hmid (hdropped.trans hd) hrest, settle_hears h.tick.streaming h.tick.linked hd hs]
    exact hears_of_lists rfl rfl l

theorem advance_hears {ms : Nat} (h : s.AtRest) (hd : s.broker.gateway.dropped = false)
    (ha : s.advance ms = .ok s') (l : Listener) : s'.hears l = s.hears l := by
  unfold advance at ha
  split at ha
  · exact pass_hears h hd ha l
  · cases ha
    exact hears_of_lists rfl rfl l

/-! ## Steps -/

/-- What is left of those who hear after a step, and who joins them. -/
def Attended (x : Step) (a : Answer) (s s' : Session) : Prop :=
  ∀ l, s'.hears l = (s.hears l && !x.ends l || decide (a.joined? = some l)) ∧
    (a.joined? = some l → s.hears l = false)

theorem Attended.of_same (hx : ∀ l, x.ends l = false) (ha : a.joined? = none)
    (h : ∀ l, s'.hears l = s.hears l) : Attended x a s s' := fun l => by
  rw [h, hx, ha]
  simp

/-- Nobody ends another's connection by a turn of its own. -/
theorem ends_of_listener {l' : Listener} (hx : x.listener? = some l) (hl : l' ≠ l) :
    x.ends l' = false := by
  cases x with
  | receive | receiveOne | readSocket => cases l' <;> rfl
  | unsubscribe =>
    cases hx
    cases l' with
    | subscriber => exact decide_eq_false fun he => hl (congrArg Listener.subscriber he.symm)
    | socket => rfl
  | send j message =>
    cases hx
    cases l' with
    | subscriber => rfl
    | socket i =>
      have hne : j ≠ i := fun he => hl (congrArg Listener.socket he.symm)
      cases message <;> simp [Step.ends, Step.endsSocket, hne]
  | closeSocket =>
    cases hx
    cases l' with
    | subscriber => rfl
    | socket => exact decide_eq_false fun he => hl (congrArg Listener.socket he.symm)
  | _ => cases hx

/-- A listener that takes a turn goes on hearing unless the turn ends that. -/
theorem turn_hears {v : View} (hx : x.listener? = some l)
    (hv : ∀ i, l = .socket i → v.sent = none → v.heard = none) (dropped : Bool) :
    (v.turn dropped x).2.heard.isSome = (v.heard.isSome && !x.ends l) ∧
      (v.turn dropped x).1.joined? = none := by
  obtain ⟨heard, sent⟩ := v
  cases x with
  | receive | receiveOne =>
    cases hx
    cases heard <;> exact ⟨rfl, rfl⟩
  | unsubscribe j =>
    cases hx
    cases heard <;> exact ⟨by simp [View.turn, Step.ends], rfl⟩
  | readSocket j =>
    cases hx
    cases heard <;> cases sent <;> exact ⟨rfl, rfl⟩
  | send j message =>
    cases hx
    cases sent with
    | none =>
      obtain rfl := hv j rfl rfl
      exact ⟨rfl, rfl⟩
    | some sent =>
      cases heard with
      | none => exact ⟨rfl, rfl⟩
      | some p =>
        cases message with
        | text | binary => exact ⟨rfl, rfl⟩
        | ping text =>
          by_cases hle : text.utf8ByteSize ≤ maxPingBytes
          · simp [View.turn, Step.ends, Step.endsSocket, Answer.joined?, hle]
          · simp [View.turn, Step.ends, Step.endsSocket, Answer.joined?, hle, Nat.lt_of_not_le hle]
  | closeSocket j abrupt =>
    cases hx
    cases sent with
    | none =>
      obtain rfl := hv j rfl rfl
      exact ⟨rfl, rfl⟩
    | some sent =>
      cases heard <;> exact ⟨by simp [View.turn, Step.ends, Step.endsSocket], rfl⟩
  | _ => cases hx

theorem heard_of_unsent {i : Nat} (h : s.sent? (.socket i) = none) :
    s.heard (.socket i) = none := by
  have hi : s.sockets[i]? = none := Option.map_eq_none_iff.mp h
  simp only [heard, subscriptionOf?, hi, Option.bind_none, Option.map_none]

theorem AtRest.turn_attended (h : s.AtRest) (hd : s.broker.gateway.dropped = false)
    (hx : x.listener? = some l) (hs : s.step x = .ok (a, s')) : Attended x a s s' := by
  obtain ⟨-, ha, hown, hothers⟩ := h.turned hx hs
  obtain ⟨hheard, hjoined⟩ := turn_hears (v := s.view l) hx
    (fun i hl hn => by subst hl; exact heard_of_unsent hn) s.broker.gateway.dropped
  rw [← ha] at hjoined
  intro l'
  rw [hjoined]
  by_cases hl : l' = l
  · subst hl
    rw [hd] at hown hheard
    rw [hears, show s'.heard l' = _ from congrArg View.heard hown, isSome_heard_forwarded, hheard]
    simp [hears, view]
  · rw [hears_congr (hothers l' hl), ends_of_listener hx hl]
    simp

/-! ## Steps of the broker's -/

theorem onBroker_joined? {α : Type} {accept : α → Answer} (hn : ∀ v, (accept v).joined? = none)
    (s : Session) (outcome : Outcome α) : (s.onBroker accept outcome).1.joined? = none := by
  obtain ⟨result, b⟩ := outcome
  cases result with
  | ok v => exact hn v
  | error e => rfl

theorem onChannel_joined? {α : Type} {accept : α → Answer} (hn : ∀ v, (accept v).joined? = none)
    (s : Session) (text : String) (run : ChannelId → Outcome α) :
    (s.onChannel text accept run).1.joined? = none := by
  unfold onChannel
  split
  · rfl
  · next id _ => exact onBroker_joined? hn s (run id)

theorem http_joined? {r : RawRequest} (ha : s.http r = .ok (a, s')) : a.joined? = none := by
  unfold Session.http at ha
  split at ha
  · cases ha
    rfl
  · obtain ⟨⟨reply, b⟩, -, he⟩ := bind_eq_ok_iff.mp ha
    cases reply <;> cases he <;> rfl

/-- Steps by which nobody comes or goes. -/
theorem act_attended_aside (hx : x.isStreaming = false) (hl : x.listener? = none)
    (hdrop : x.isDrop = false) (hadv : ∀ ms, x ≠ .advance ms) (ha : s.act x = .ok (a, s')) :
    Attended x a s s' := by
  have hacted := act_acted hadv hdrop ha
  have hjoined : a.joined? = none := by
    have hof : ∀ p : Answer × Session, s.act x = .ok p → p.1.joined? = none → a.joined? = none := by
      intro p hp hn
      rw [ha] at hp
      cases hp
      exact hn
    cases x with
    | createQueue | getQueue | deleteQueue | submit | createChannel =>
      exact hof _ rfl (onBroker_joined? (fun _ => rfl) s _)
    | getChannel | deleteChannel | dequeue =>
      exact hof _ rfl (onChannel_joined? (fun _ => rfl) s _ _)
    | http request => exact http_joined? ha
    | advance ms => exact absurd rfl (hadv ms)
    | dropBroker => cases hdrop
    | subscribe | connect => cases hx
    | receive | receiveOne | unsubscribe | readSocket | send | closeSocket => cases hl
    | _ => exact hof _ rfl rfl
  have hends : ∀ l, x.ends l = false := by
    intro l
    cases x with
    | unsubscribe | send | closeSocket => cases hx
    | dropBroker => cases hdrop
    | _ => cases l <;> rfl
  refine .of_same hends hjoined (hears_of_lists (hacted.subscriptions ?_) (hacted.forwarded hx))
  cases x with
  | subscribe | unsubscribe => cases hx
  | _ => rfl

/-- A new listener hears something, and it is not one that was there before. -/
theorem Attended.of_new {new : Listener} (hx : ∀ l, x.ends l = false) (ha : a.joined? = some new)
    (hn : s.hears new = false) {v : View} (hv : v.heard.isSome = true)
    (h : ∀ l, s'.view l = if l = new then v else s.view l) : Attended x a s s' := by
  intro l
  rw [hx, ha]
  by_cases hl : l = new
  · subst hl
    refine ⟨?_, fun _ => hn⟩
    have hown : s'.view l = v := (h l).trans (if_pos rfl)
    have hheard : s'.heard l = v.heard := congrArg View.heard hown
    rw [hears, hheard, hv]
    simp
  · have hother : s'.view l = s.view l := (h l).trans (if_neg hl)
    have hne : some new ≠ some l := fun he => hl (Option.some.inj he).symm
    rw [hears_congr hother]
    exact ⟨by simp [hne], fun he => absurd he hne⟩

theorem subscribe_attended (h : s.Streaming) {category : String}
    (ha : s.act (.subscribe category) = .ok (a, s')) : Attended (.subscribe category) a s s' := by
  obtain ⟨⟨sub, b⟩, hsub, he⟩ := map_eq_ok_iff.mp ha
  cases he
  refine .of_new (fun l => by cases l <;> rfl) rfl ?_ rfl (view_subscribed h.serves hsub)
  simp [hears_eq, subscriptionOf?, subscription?]

/-- A handshake is refused, or a socket is connected to the category whose stream was asked for. -/
theorem connect_cases {path : String} (ha : s.connect path = .ok (a, s')) :
    (∃ b, s' = { s with broker := b } ∧ a.joined? = none) ∨
      ∃ req category sub b, (Step.connect path).request? = some req ∧
        Api.opens? req = some category ∧ s.broker.subscribe category = .ok (sub, b) ∧
        a = .connected s.sockets.length ∧
        s' = { s with broker := b, sockets := s.sockets ++ [Socket.mk (some sub) .empty] } := by
  unfold connect at ha
  split at ha
  · cases ha
    exact .inl ⟨s.broker, rfl, rfl⟩
  · next req hreq =>
    obtain ⟨⟨reply, b⟩, hserve, he⟩ := bind_eq_ok_iff.mp ha
    cases reply with
    | response r =>
      cases he
      exact .inl ⟨b, rfl, rfl⟩
    | stream sub =>
      cases he
      obtain ⟨category, hopens, hsub⟩ := Api.opens?_of_stream hserve
      exact .inr ⟨req, category, sub, b, hreq, hopens, hsub, rfl, rfl⟩

theorem connect_attended (h : s.Streaming) {path : String} (ha : s.connect path = .ok (a, s')) :
    Attended (.connect path) a s s' := by
  have hends : ∀ l, (Step.connect path).ends l = false := fun l => by cases l <;> rfl
  obtain ⟨b, rfl, hn⟩ | ⟨req, category, sub, b, -, -, hsub, rfl, rfl⟩ := connect_cases ha
  · exact .of_same hends hn (hears_of_lists rfl rfl)
  · refine .of_new hends rfl ?_ rfl (view_connected h.serves hsub)
    simp [hears_eq, subscriptionOf?]

/-- Every step. -/
theorem AtRest.step_attended (h : s.AtRest) (hd : s.broker.gateway.dropped = false)
    (hdrop : x.isDrop = false) (hs : s.step x = .ok (a, s')) : Attended x a s s' := by
  cases hl : x.listener? with
  | some l => exact h.turn_attended hd hl hs
  | none =>
    have hout : s.broker.gateway.dropped = true → x.outlivesBroker = true := by
      rw [hd]
      exact fun hf => Bool.noConfusion hf
    obtain ⟨acted, ha, hsettle⟩ := step_eq_ok_iff.mp hs
    have hacted : Attended x a s acted := by
      by_cases hadv : ∃ ms, x = .advance ms
      · obtain ⟨ms, rfl⟩ := hadv
        obtain ⟨later, hlater, he⟩ := map_eq_ok_iff.mp ha
        cases he
        exact .of_same (fun l => by cases l <;> rfl) rfl (advance_hears h hd hlater)
      · by_cases hx : x.isStreaming = true
        · cases x with
          | subscribe category => exact subscribe_attended h.streaming ha
          | connect path => exact connect_attended h.streaming ha
          | receive | receiveOne | unsubscribe | send | closeSocket => cases hl
          | _ => cases hx
        · rw [Bool.not_eq_true] at hx
          exact act_attended_aside hx hl hdrop (fun ms he => hadv ⟨ms, he⟩) ha
    have hdropped : acted.broker.gateway.dropped = false := by
      rw [act_dropped h.streaming h.linked hout ha, hdrop, hd]
      rfl
    have hpaced := h.acted hout ha
    intro l
    rw [settle_hears hpaced.streaming hpaced.linked hdropped hsettle]
    exact hacted l

/-! ## The roster -/

/-- Those who hear anything, each once. -/
structure Roster (s : Session) (roster : List Listener) : Prop where
  nodup : roster.Nodup
  mem_iff : ∀ l, l ∈ roster ↔ s.hears l = true

/-- Who comes is put down, and who goes is crossed out. -/
theorem Roster.attend (h : s.Roster roster) (ha : Attended x a s s') :
    s'.Roster (EventBroker.attend roster (x, a)) where
  nodup := by
    refine List.nodup_append.mpr ⟨h.nodup.filter _, ?_, ?_⟩
    · cases a.joined? with
      | none => exact List.nodup_nil
      | some new => exact List.nodup_singleton new
    · rintro l hl l' hl' rfl
      have hheard := (h.mem_iff l).mp (List.mem_of_mem_filter hl)
      rw [(ha l).2 (Option.mem_toList.mp hl')] at hheard
      cases hheard
  mem_iff l := by
    rw [(ha l).1, EventBroker.attend, List.mem_append, List.mem_filter, h.mem_iff,
      Option.mem_toList]
    simp

theorem Roster.run {steps : List Step} {answers : List Answer} (h : s.Roster roster)
    (hs : s.AtRest) (hd : s.broker.gateway.dropped = false) (hx : ∀ x ∈ steps, x.isDrop = false)
    (hr : s.run steps = .ok (answers, s')) :
    s'.Roster ((steps.zip answers).foldl EventBroker.attend roster) ∧ s'.AtRest ∧
      s'.broker.gateway.dropped = false := by
  induction steps generalizing s roster answers with
  | nil =>
    cases hr
    exact ⟨h, hs, hd⟩
  | cons x rest ih =>
    obtain ⟨a, mid, later, hstep, htail, rfl⟩ := run_cons_eq_ok_iff.mp hr
    rw [List.forall_mem_cons] at hx
    have hout : s.broker.gateway.dropped = true → x.outlivesBroker = true := by
      rw [hd]
      exact fun hf => Bool.noConfusion hf
    have hdropped := (step_leads hs.streaming hs.linked hout hstep).1.dropped hs.streaming.serves
      fun d hm => stepDeeds_drop hx.1 hm
    exact ih (h.attend (hs.step_attended hd hx.1 hstep)) (hs.step hout hstep)
      (hdropped.trans hd) hx.2 htail

end Session

end EventBroker
