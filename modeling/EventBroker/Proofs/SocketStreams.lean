import EventBroker.Proofs.Accompaniment
import EventBroker.Proofs.Attendance
import EventBroker.Proofs.Clocks

/-! # Sockets as subscriptions

Beside a run in which a socket is connected stands one in which a subscriber goes along with it:
the subscriber fetches after every step and every millisecond, leaves when the connection ends, and
is not concerned with what the socket's peer sends (`Step.alongside`). Step by step, what the socket
is told is what the subscriber fetches (`Told`).
-/
set_option autoImplicit false

namespace EventBroker

/-! ## What a socket is told -/

/-- The event of which a frame tells. -/
def Frame.event? : Frame → Option Api.StreamEvent
  | .event e => some e
  | _ => none

/-- The events in frames that have been sent and not been read. -/
def View.texts (v : View) : List Api.StreamEvent :=
  ((v.sent.map Fifo.toList).getD []).filterMap Frame.event?

/-- The events in the frames that the answer to a step shows of a socket. -/
def textsBy (i : Nat) : Step × Answer → List Api.StreamEvent
  | (.readSocket j, .frames fs) => if j = i then fs.filterMap Frame.event? else []
  | _ => []

/-- The events in the frames that are read from a socket in the course of some steps. -/
def textsRead (i : Nat) (steps : List Step) (answers : List Answer) : List Api.StreamEvent :=
  (steps.zip answers).flatMap (textsBy i)

theorem View.texts_forwarded (dropped : Bool) (heard : Option (String × List DeliveredEvent))
    (sent : Fifo Frame) : ((View.mk heard (some sent)).forwarded dropped).texts =
      (View.mk heard (some sent)).texts ++ (waitingIn heard).map Api.StreamEvent.ofDelivered := by
  have hmap : ∀ es : List DeliveredEvent,
      (es.map fun e => Frame.event (.ofDelivered e)).filterMap Frame.event? =
        es.map Api.StreamEvent.ofDelivered := fun es => by
    rw [List.filterMap_map, ← List.filterMap_eq_map']
    rfl
  cases heard with
  | none => simp [View.forwarded, waitingIn]
  | some p =>
    cases dropped with
    | true =>
      simp [View.forwarded, View.texts, waitingIn, Session.toList_foldl_push, hmap, Frame.event?]
    | false => simp [View.forwarded, View.texts, waitingIn, Session.toList_foldl_push, hmap]

theorem View.heard_forwarded (dropped : Bool) (heard : Option (String × List DeliveredEvent))
    (sent : Fifo Frame) : ((View.mk heard (some sent)).forwarded dropped).heard =
      if dropped then none else drained heard := by
  cases heard with
  | none => cases dropped <;> rfl
  | some p => cases dropped <;> rfl

namespace Step

/-- Whether a step sends a message to a socket that keeps the rules of the connection. -/
def isInbound (i : Nat) : Step → Bool
  | .send j (.ping text) => j = i && text.utf8ByteSize ≤ Session.maxPingBytes
  | .send j _ => j = i
  | _ => false

/-- What is done in place of a step where a subscriber `k` goes along with the socket `i`. -/
def alongside (i k : Nat) : Step → List Step
  | .advance ms => (List.replicate ms [.advance 1, .receive k none]).flatten
  | x =>
    if x.isInbound i then []
    else x.shift k :: .receive k none :: if x.endsSocket i then [.unsubscribe k] else []

end Step

namespace Session

variable {i k : Nat} {s s' mid t t' : Session} {x : Step} {a : Answer}

/-! ## One socket's account -/

/-- What has been read from a socket and what has not balance with some events. Frames are lost only
if the socket is closed abruptly, and who is not connected is told nothing. -/
structure Told (i : Nat) (steps : List Step) (answers : List Answer) (events : List DeliveredEvent)
    (s s' : Session) : Prop where
  balance : ∃ lost, textsRead i steps answers ++ (s'.view (.socket i)).texts ++ lost =
      (s.view (.socket i)).texts ++ events.map Api.StreamEvent.ofDelivered ∧
    (lost ≠ [] → .closeSocket i true ∈ steps ∧ (s'.view (.socket i)).texts = [] ∧
      s'.heard (.socket i) = none)
  silent : s.heard (.socket i) = none → s'.heard (.socket i) = none ∧ events = []

theorem Told.trans {steps steps' : List Step} {answers answers' : List Answer}
    {events events' : List DeliveredEvent} (h : Told i steps answers events s mid)
    (h' : Told i steps' answers' events' mid s') (hl : steps.length = answers.length) :
    Told i (steps ++ steps') (answers ++ answers') (events ++ events') s s' := by
  have hread : textsRead i (steps ++ steps') (answers ++ answers') =
      textsRead i steps answers ++ textsRead i steps' answers' := by
    rw [textsRead, List.zip_append hl, List.flatMap_append]
    rfl
  refine ⟨?_, fun hn => ?_⟩
  · obtain ⟨lost, hb, hlost⟩ := h.balance
    obtain ⟨lost', hb', hlost'⟩ := h'.balance
    rw [hread, List.map_append, ← List.append_assoc, ← hb]
    by_cases hnil : lost = []
    · refine ⟨lost', ?_, fun hne => ?_⟩
      · rw [hnil, List.append_nil, List.append_assoc _ _ (List.map _ _), ← hb']
        simp only [List.append_assoc]
      · obtain ⟨hm, hrest⟩ := hlost' hne
        exact ⟨List.mem_append_right _ hm, hrest⟩
    · -- nothing comes after the socket was closed abruptly
      obtain ⟨hm, htexts, hheard⟩ := hlost hnil
      obtain ⟨hheard', hevents⟩ := h'.silent hheard
      rw [htexts, hevents, List.map_nil, List.append_nil, List.append_eq_nil_iff,
        List.append_eq_nil_iff] at hb'
      obtain ⟨⟨hread', htexts'⟩, -⟩ := hb'
      refine ⟨lost, ?_, fun _ => ⟨List.mem_append_left _ hm, htexts', hheard'⟩⟩
      rw [hread', htexts', htexts, hevents]
      simp only [List.append_nil, List.map_nil]
  · obtain ⟨hmid, rfl⟩ := h.silent hn
    obtain ⟨hlast, rfl⟩ := h'.silent hmid
    exact ⟨hlast, rfl⟩

theorem received_append (k : Nat) {steps : List Step} {answers : List Answer}
    (hl : steps.length = answers.length) (steps' : List Step) (answers' : List Answer) :
    received k (steps ++ steps') (answers ++ answers') =
      received k steps answers ++ received k steps' answers' := by
  rw [received, List.zip_append hl, List.flatMap_append]
  rfl

/-! ## Sessions at rest -/

theorem exists_sent (hi : i < s.sockets.length) : ∃ sent, s.sent? (.socket i) = some sent :=
  ⟨_, by rw [sent?, List.getElem?_eq_getElem hi, Option.map_some]⟩

/-- Nothing waits for a socket at rest, and there is none when the broker is gone. -/
theorem AtRest.heard_flushed (h : s.AtRest) (hi : i < s.sockets.length) :
    (if s.broker.gateway.dropped then none else drained (s.heard (.socket i))) =
      s.heard (.socket i) := by
  obtain ⟨sent, hsent⟩ := exists_sent hi
  have hf := congrArg View.heard (h.flushed (.socket i))
  rw [view, hsent, View.heard_forwarded] at hf
  exact hf

theorem waitingIn_drained (heard : Option (String × List DeliveredEvent)) :
    waitingIn (drained heard) = [] := by
  cases heard <;> rfl

theorem AtRest.waitingIn_heard (h : s.AtRest) (hi : i < s.sockets.length) :
    waitingIn (s.heard (.socket i)) = [] := by
  rw [← h.heard_flushed hi]
  split
  · rfl
  · exact waitingIn_drained _

theorem AtRest.drained_heard (h : s.AtRest) (hi : i < s.sockets.length) :
    drained (s.heard (.socket i)) = s.heard (.socket i) := by
  have hf := h.heard_flushed hi
  split at hf
  · rw [← hf]
    rfl
  · exact hf

/-- The tasks find nothing to do. -/
theorem Accompanies.settle_idle {line : Option (String × List DeliveredEvent)}
    (h : Accompanies i k line s t) (ht : t.AtRest) :
    ∃ t', t.settle = .ok t' ∧ t'.AtRest ∧ Accompanies i k line s t' := by
  obtain ⟨t', hs, hstreamed, hview⟩ := ht.toPaced.settle_idle ht.idle
  refine ⟨_, hs, ht.toPaced.rest_of_settle hs,
    h.streamed (.refl s) hstreamed (fun l hl => ?_) ?_⟩
  · rw [h.others l hl, hview, ht.flushed]
  · rw [hview, ht.flushed, h.own]

/-! ## Steps of others -/

/-- The tasks tell the socket what waits for the subscriber afterwards. -/
theorem Accompanies.settle_told (h : Accompanies i k (s.heard (.socket i)) s t) (hs : s.Paced)
    (ht : t.Paced) (hst : s.settle = .ok s') : ∃ line t', s'.AtRest ∧ t.settle = .ok t' ∧
      t'.AtRest ∧ Accompanies i k line s' t' ∧
      (s'.view (.socket i)).texts =
        (s.view (.socket i)).texts ++ (waitingIn line).map Api.StreamEvent.ofDelivered ∧
      s'.heard (.socket i) = (if s.broker.gateway.dropped then none else drained line) ∧
      (s.heard (.socket i) = none → line = none) := by
  obtain ⟨line, s₁, t', hs₁, hrest, ht', hrest', hacc, hview, hnone⟩ := h.settle hs ht
  rw [hst] at hs₁
  cases hs₁
  obtain ⟨sent, hsent⟩ := exists_sent h.there
  rw [hsent] at hview
  refine ⟨line, t', hrest, ht', hrest', hacc, ?_, ?_, hnone⟩
  · rw [hview, View.texts_forwarded]
    simp only [View.texts, view, hsent]
  · exact (congrArg View.heard hview).trans (View.heard_forwarded ..)

theorem received_cons (k : Nat) (x : Step) (rest : List Step) (a : Answer) (later : List Answer) :
    received k (x :: rest) (a :: later) = receivedBy k (x, a) ++ received k rest later := rfl

/-- What others receive, the subscriber does not. -/
theorem receivedBy_shift (k : Nat) (x : Step) (a : Answer) :
    receivedBy k (x.shift k, a) = [] := by
  cases x with
  | receive n max =>
    cases a with
    | drained => exact if_neg (EventBroker.shift_ne k n)
    | _ => rfl
  | receiveOne n =>
    cases a with
    | received => exact if_neg (EventBroker.shift_ne k n)
    | _ => rfl
  | _ => rfl

theorem length_of_run {steps : List Step} {answers : List Answer}
    (hr : s.run steps = .ok (answers, s')) : steps.length = answers.length := by
  induction steps generalizing s answers with
  | nil =>
    cases hr
    rfl
  | cons x rest ih =>
    obtain ⟨a, mid, later, -, htail, rfl⟩ := run_cons_eq_ok_iff.mp hr
    exact congrArg (· + 1) (ih htail)

/-- The subscriber fetches what waits for it, and goes on listening unless the socket is gone. -/
theorem Accompanies.fetch {line : Option (String × List DeliveredEvent)}
    (h : Accompanies i k line s t) (ht : t.AtRest) (leave : Bool)
    (hl : (if leave then none else drained line) = s.heard (.socket i)) : ∃ answers t',
      t.run (.receive k none :: if leave then [.unsubscribe k] else []) = .ok (answers, t') ∧
      t'.AtRest ∧ Accompanies i k (s.heard (.socket i)) s t' ∧
      received k (.receive k none :: if leave then [.unsubscribe k] else []) answers =
        waitingIn line := by
  obtain ⟨a, t₁, hstep, hrest, hgot, hacc⟩ := h.drain ht
  cases leave with
  | false =>
    refine ⟨[a], t₁, run_cons_eq_ok_iff.mpr ⟨a, t₁, [], hstep, rfl, rfl⟩, hrest, hl ▸ hacc, ?_⟩
    rw [← hgot]
    exact List.append_nil _
  | true =>
    obtain ⟨a', t', hstep', hrest', hacc'⟩ := hacc.leave hrest
    refine ⟨[a, a'], t', run_cons_eq_ok_iff.mpr ⟨a, t₁, [a'], hstep,
      run_cons_eq_ok_iff.mpr ⟨a', t', [], hstep', rfl, rfl⟩, rfl⟩, hrest', hl ▸ hacc', ?_⟩
    rw [← hgot]
    exact List.append_nil _

/-- While some steps lead from one session on, others lead from the other one on so that the
subscriber fetches what the socket is told. -/
def Relayed (i k : Nat) (s t : Session) (steps : List Step) (answers : List Answer) (s' : Session)
    (steps' : List Step) : Prop :=
  ∃ answers' t', t.run steps' = .ok (answers', t') ∧ s'.AtRest ∧ t'.AtRest ∧
    Accompanies i k (s'.heard (.socket i)) s' t' ∧
    Told i steps answers (received k steps' answers') s s'

theorem Relayed.trans {steps₁ steps₂ others₁ others₂ : List Step} {answers₁ answers₂ : List Answer}
    (h : Relayed i k s t steps₁ answers₁ mid others₁) (hl : steps₁.length = answers₁.length)
    (h' : ∀ t', mid.AtRest → t'.AtRest → Accompanies i k (mid.heard (.socket i)) mid t' →
      Relayed i k mid t' steps₂ answers₂ s' others₂) :
    Relayed i k s t (steps₁ ++ steps₂) (answers₁ ++ answers₂) s' (others₁ ++ others₂) := by
  obtain ⟨early, t₁, hrun, hrest, hrest₁, hacc, htold⟩ := h
  obtain ⟨late, t₂, hrun', hrest', hrest₂, hacc', htold'⟩ := h' t₁ hrest hrest₁ hacc
  refine ⟨early ++ late, t₂, run_append_eq_ok_iff.mpr ⟨early, late, t₁, hrun, hrun', rfl⟩, hrest',
    hrest₂, hacc', ?_⟩
  rw [received_append k (length_of_run hrun)]
  exact htold.trans htold' hl

/-- Nobody reads. -/
theorem Told.of_texts {steps : List Step} {answers : List Answer} {events : List DeliveredEvent}
    (hr : textsRead i steps answers = []) (hv : (s'.view (.socket i)).texts =
      (s.view (.socket i)).texts ++ events.map Api.StreamEvent.ofDelivered)
    (hn : s.heard (.socket i) = none → s'.heard (.socket i) = none ∧ events = []) :
    Told i steps answers events s s' where
  balance := ⟨[], by rw [hr, List.nil_append, List.append_nil, hv], fun h => absurd rfl h⟩
  silent := hn

/-! ## Time that passes -/

theorem isWaiting_congr (hd : s'.driver.isSome = s.driver.isSome)
    (hr : s'.reapers.isEmpty = s.reapers.isEmpty) : s'.isWaiting = s.isWaiting := by
  rw [isWaiting, isWaiting, hd, hr]

theorem settle_isWaiting (hs : s.settle = .ok s') : s'.isWaiting = s.isWaiting := by
  rw [runSockets_eq hs]
  show s.runDriver.runReapers.isWaiting = s.isWaiting
  rw [runReapers_eq]
  refine isWaiting_congr ?_ ?_
  · show s.runDriver.driver.isSome = s.driver.isSome
    unfold runDriver
    split
    · next hd => rw [hd]
    · next hd => split <;> simp [hd]
  · rw [runDriver_eq]
    simp

theorem advance_zero (s : Session) : s.advance 0 = .ok s := by
  unfold advance
  split
  · rfl
  · rw [Moment.after_zero]

/-- Milliseconds pass one after another, whether anything waits for them or not. -/
theorem advance_succ {n : Nat} (ha : s.advance (n + 1) = .ok s') :
    ∃ mid, s.advance 1 = .ok mid ∧ mid.advance n = .ok s' := by
  unfold advance at ha ⊢
  split at ha
  · next hw =>
    rw [if_pos hw]
    obtain ⟨mid, hs, hrest⟩ := pass_succ_eq_ok_iff.mp ha
    have hmid : mid.isWaiting = true := (settle_isWaiting hs).trans hw
    exact ⟨mid, pass_succ_eq_ok_iff.mpr ⟨mid, hs, rfl⟩, (if_pos hmid).trans hrest⟩
  · next hw =>
    rw [if_neg hw]
    cases ha
    refine ⟨_, rfl, (if_neg hw).trans ?_⟩
    simp only [Moment.after_after, Nat.add_comm]

theorem advance_one (s : Session) : s.advance 1 =
    if s.isWaiting then Session.settle { s with moment := s.moment.after 1 }
    else .ok { s with moment := s.moment.after 1 } := by
  unfold advance
  split
  · simp only [pass]
    split <;> simp_all
  · rfl

/-- Where the broker was gone before, there is nothing to be told. -/
theorem AtRest.heard_drained {line : Option (String × List DeliveredEvent)} (h : s.AtRest)
    (hi : i < s.sockets.length) (hn : s.heard (.socket i) = none → line = none)
    (hl : s'.heard (.socket i) = if s.broker.gateway.dropped then none else drained line) :
    drained line = s'.heard (.socket i) := by
  rw [hl]
  split
  · next hd =>
    have hf := h.heard_flushed hi
    rw [if_pos hd] at hf
    rw [hn hf.symm]
    rfl
  · rfl

/-- A millisecond passes, and the subscriber fetches what the socket is told. -/
theorem Accompanies.tick (h : Accompanies i k (s.heard (.socket i)) s t) (hs : s.AtRest)
    (ht : t.AtRest) (ha : s.advance 1 = .ok s') :
    Relayed i k s t [] [] s' [.advance 1, .receive k none] := by
  have hwaiting : s.isWaiting = t.isWaiting := by rw [isWaiting, isWaiting, h.driver, h.reapers]
  have htick : Accompanies i k (s.heard (.socket i)) { s with moment := s.moment.after 1 }
      { t with moment := t.moment.after 1 } :=
    { h with moment := congrArg (·.after 1) h.moment }
  obtain ⟨line, t₁, hrest, hadvance, hrest₁, hacc, htexts, hheard, hnone⟩ :
      ∃ line t₁, s'.AtRest ∧ t.advance 1 = .ok t₁ ∧ t₁.AtRest ∧ Accompanies i k line s' t₁ ∧
        (s'.view (.socket i)).texts =
          (s.view (.socket i)).texts ++ (waitingIn line).map Api.StreamEvent.ofDelivered ∧
        s'.heard (.socket i) = (if s.broker.gateway.dropped then none else drained line) ∧
        (s.heard (.socket i) = none → line = none) := by
    have hrest := hs.rest_of_advance ha
    rw [advance_one] at ha ⊢
    rw [← hwaiting]
    split at ha
    · next hw =>
      obtain ⟨line, t₁, -, ht₁, hrest₁, hrest'⟩ := htick.settle_told hs.tick ht.tick ha
      exact ⟨line, t₁, hrest, (if_pos hw).trans ht₁, hrest₁, hrest'⟩
    · next hw =>
      obtain ⟨t₁, ht₁, hrest₁⟩ := ht.advance 1
      rw [advance_one, if_neg (hwaiting ▸ hw)] at ht₁
      cases ha
      cases ht₁
      refine ⟨_, _, hrest, if_neg hw, hrest₁, htick, ?_, (hs.heard_flushed h.there).symm, id⟩
      rw [hs.waitingIn_heard h.there, List.map_nil, List.append_nil]
      rfl
  obtain ⟨t₂, ht₂, hrest₂, hacc₂⟩ := hacc.settle_idle hrest₁
  have hline := hs.heard_drained h.there hnone hheard
  obtain ⟨answers, t₃, hrun, hrest₃, hacc₃, hgot⟩ := hacc₂.fetch hrest₂ false hline
  have hstep : t.step (.advance 1) = .ok (.number t₁.moment.now, t₂) :=
    step_eq_ok_iff.mpr ⟨t₁, map_eq_ok_iff.mpr ⟨t₁, hadvance, rfl⟩, ht₂⟩
  have hreceived : received k [.advance 1, .receive k none] (.number t₁.moment.now :: answers) =
      waitingIn line := hgot
  refine ⟨_, t₃, run_cons_eq_ok_iff.mpr ⟨_, t₂, answers, hstep, hrun, rfl⟩, hrest, hrest₃, hacc₃,
    ?_⟩
  rw [hreceived]
  refine .of_texts rfl htexts fun hn => ?_
  rw [← hline, hnone hn]
  exact ⟨rfl, rfl⟩

/-- Time passes. -/
theorem Accompanies.advance {ms : Nat} (h : Accompanies i k (s.heard (.socket i)) s t)
    (hs : s.AtRest) (ht : t.AtRest) (ha : s.advance ms = .ok s') :
    Relayed i k s t [] [] s' (List.replicate ms [.advance 1, .receive k none]).flatten := by
  induction ms generalizing s t with
  | zero =>
    rw [advance_zero] at ha
    cases ha
    refine ⟨[], t, rfl, hs, ht, h, .of_texts rfl ?_ fun hn => ⟨hn, rfl⟩⟩
    exact (List.append_nil _).symm
  | succ n ih =>
    obtain ⟨mid, hone, hrest⟩ := advance_succ ha
    rw [List.replicate_succ, List.flatten_cons]
    exact (h.tick hs ht hone).trans rfl fun t' hmid ht' hacc => ih hacc hmid ht' hrest

/-- A step that reads nothing from the socket. -/
theorem Relayed.of_unread {others : List Step} (h : Relayed i k s t [] [] s' others)
    (hx : textsBy i (x, a) = []) : Relayed i k s t [x] [a] s' others := by
  obtain ⟨answers, t', hrun, hrest, hrest', hacc, hbalance, hsilent⟩ := h
  refine ⟨answers, t', hrun, hrest, hrest', hacc, ?_, hsilent⟩
  obtain ⟨lost, hb, hlost⟩ := hbalance
  refine ⟨lost, ?_, fun hne => absurd (hlost hne).1 List.not_mem_nil⟩
  rw [← hb]
  exact congrArg (· ++ _ ++ lost) ((List.append_nil _).trans hx)

/-- In a session at rest the tasks find nothing to do. -/
theorem Accompanies.settled (h : Accompanies i k (s.heard (.socket i)) s t) (hs : s.AtRest)
    (ht : t.AtRest) (hst : s.settle = .ok s') : Relayed i k s t [] [] s' [] := by
  obtain ⟨s₁, hs₁, hstreamed, hview⟩ := hs.toPaced.settle_idle hs.idle
  have hrest := hs.toPaced.rest_of_settle hst
  rw [hst] at hs₁
  cases hs₁
  have hsame : ∀ l, s'.view l = s.view l := fun l => (hview l).trans (hs.flushed l)
  have hheard : s'.heard (.socket i) = s.heard (.socket i) := congrArg View.heard (hsame _)
  refine ⟨[], t, rfl, hrest, ht, hheard ▸ h.streamed hstreamed (.refl t) (fun l hl => ?_) h.own,
    .of_texts rfl ?_ fun hn => ⟨hheard.trans hn, rfl⟩⟩
  · rw [hsame, h.others l hl]
  · rw [hsame]
    exact (List.append_nil _).symm

theorem Accompanies.step_advance {ms : Nat} (h : Accompanies i k (s.heard (.socket i)) s t)
    (hs : s.AtRest) (ht : t.AtRest) (hstep : s.step (.advance ms) = .ok (a, s')) :
    Relayed i k s t [.advance ms] [a] s' ((Step.advance ms).alongside i k) := by
  obtain ⟨acted, ha, hst⟩ := step_eq_ok_iff.mp hstep
  obtain ⟨later, hadvance, he⟩ := map_eq_ok_iff.mp ha
  cases he
  have hlast : (Step.advance ms).alongside i k =
      (List.replicate ms [.advance 1, .receive k none]).flatten ++ [] := (List.append_nil _).symm
  have hrelayed := (h.advance hs ht hadvance).trans rfl fun t' hrest hrest' hacc =>
    hacc.settled hrest hrest' hst
  rw [hlast]
  exact hrelayed.of_unread (x := .advance ms) rfl

theorem alongside_eq (hadv : ∀ ms, x ≠ .advance ms) (hx : x.isInbound i = false) :
    x.alongside i k = x.shift k :: .receive k none ::
      if x.endsSocket i then [.unsubscribe k] else [] := by
  have hif : (if x.isInbound i = true then ([] : List Step) else x.shift k :: .receive k none ::
      if x.endsSocket i then [.unsubscribe k] else []) = x.shift k :: .receive k none ::
        if x.endsSocket i then [.unsubscribe k] else [] := by
    rw [hx]
    rfl
  cases x with
  | advance ms => exact absurd rfl (hadv ms)
  | _ => exact hif

/-- Whoever is not the socket's peer sends nothing there, and ends the connection only by dropping
the broker. -/
theorem aside_of_listener (hx : x.listener? ≠ some (.socket i)) :
    x.isInbound i = false ∧ x.endsSocket i = x.isDrop ∧ textsBy i (x, a) = [] := by
  have hne : ∀ j, some (Listener.socket j) ≠ some (Listener.socket i) → j ≠ i :=
    fun j hne hj => hne (by rw [hj])
  cases x with
  | send j message =>
    have hj : j ≠ i := hne j hx
    cases message <;> simp [Step.isInbound, Step.endsSocket, Step.isDrop, textsBy, hj]
  | closeSocket j abrupt =>
    have hj : j ≠ i := hne j hx
    simp [Step.isInbound, Step.endsSocket, Step.isDrop, textsBy, hj]
  | readSocket j =>
    have hj : j ≠ i := hne j hx
    refine ⟨rfl, rfl, ?_⟩
    cases a with
    | frames fs => exact if_neg hj
    | _ => rfl
  | _ => exact ⟨rfl, rfl, rfl⟩

theorem Accompanies.step_aside (h : Accompanies i k (s.heard (.socket i)) s t) (hs : s.AtRest)
    (ht : t.AtRest) (hadv : ∀ ms, x ≠ .advance ms) (hx : x.listener? ≠ some (.socket i))
    (hd : s.broker.gateway.dropped = true → x.outlivesBroker = true)
    (hstep : s.step x = .ok (a, s')) : Relayed i k s t [x] [a] s' (x.alongside i k) := by
  obtain ⟨acted, ha, hst⟩ := step_eq_ok_iff.mp hstep
  obtain ⟨a', t₁, ha', hacc, hsent, hnone⟩ :=
    h.act hs.toPaced ht.toPaced hadv hx hd ha
  have hd' : t.broker.gateway.dropped = true → (x.shift k).outlivesBroker = true := by
    rw [← h.broker.dropped, outlivesBroker_shift]
    exact hd
  obtain ⟨line, t₂, hrest, ht₂, hrest₂, hacc₂, htexts, hheard, hline⟩ :=
    hacc.settle_told (hs.acted hd ha) (ht.acted hd' ha') hst
  obtain ⟨hin, hends, htextsBy⟩ := aside_of_listener (a := a) hx
  have hleave : (if x.endsSocket i then none else drained line) = s'.heard (.socket i) := by
    have hdropped := act_dropped hs.streaming hs.linked hd ha
    rw [hends]
    cases hdrop : x.isDrop with
    | true =>
      rw [hheard, hdropped, hdrop]
      rfl
    | false =>
      rw [hdropped, hdrop, Bool.false_or] at hheard
      exact hs.heard_drained h.there (fun hn => hline (hnone hn)) hheard
  obtain ⟨answers, t₃, hrun, hrest₃, hacc₃, hgot⟩ := hacc₂.fetch hrest₂ (x.endsSocket i) hleave
  have hstep' : t.step (x.shift k) = .ok (a', t₂) := step_eq_ok_iff.mpr ⟨t₁, ha', ht₂⟩
  rw [alongside_eq hadv hin]
  refine Relayed.of_unread ⟨_, t₃, run_cons_eq_ok_iff.mpr ⟨_, t₂, answers, hstep', hrun, rfl⟩,
    hrest, hrest₃, hacc₃, ?_⟩ htextsBy
  rw [received_cons, receivedBy_shift, List.nil_append, hgot]
  refine .of_texts rfl ?_ fun hn => ?_
  · rw [htexts]
    simp only [View.texts, view, hsent]
  · have hnil := hline (hnone hn)
    rw [hheard, hnil]
    refine ⟨?_, rfl⟩
    split <;> rfl

/-! ## Steps of the socket's peer -/

theorem heard_cases (hs : s.AtRest) (hi : i < s.sockets.length) : s.heard (.socket i) = none ∨
    s.broker.gateway.dropped = false ∧ ∃ category, s.heard (.socket i) = some (category, []) := by
  have hf := hs.heard_flushed hi
  cases hd : s.broker.gateway.dropped with
  | true =>
    rw [if_pos hd] at hf
    exact .inl hf.symm
  | false =>
    cases hheard : s.heard (.socket i) with
    | none => exact .inl rfl
    | some p =>
      rw [hd, hheard] at hf
      obtain ⟨category, waiting⟩ := p
      obtain ⟨-, rfl⟩ := Prod.mk.inj (Option.some.inj hf)
      exact .inr ⟨rfl, category, rfl⟩

/-- What the peer does to a socket at rest: it reads what was sent there, or ends the connection, or
changes nothing about the events. -/
theorem turn_told {dropped : Bool} {heard : Option (String × List DeliveredEvent)}
    {sent : Fifo Frame} (hx : x.listener? = some (.socket i))
    (hh : heard = none ∨ dropped = false ∧ ∃ category, heard = some (category, [])) {v v' : View}
    (hv : v = ⟨heard, some sent⟩) (hv' : v' = (v.turn dropped x).2.forwarded dropped)
    (ha : a = (v.turn dropped x).1) :
    v'.heard = (if x.endsSocket i then none else heard) ∧
      ∃ lost, textsBy i (x, a) ++ v'.texts ++ lost = v.texts ∧
        (lost ≠ [] → x = .closeSocket i true ∧ v'.texts = [] ∧ v'.heard = none) := by
  subst hv hv' ha
  cases x with
  | readSocket j =>
    cases hx
    rcases hh with rfl | ⟨rfl, category, rfl⟩
    all_goals exact ⟨rfl, [], by simp [View.turn, View.forwarded, View.texts, textsBy],
      fun h => absurd rfl h⟩
  | send j message =>
    cases hx
    rcases hh with rfl | ⟨rfl, category, rfl⟩
    · refine ⟨?_, [], ?_, fun h => absurd rfl h⟩
      · split <;> rfl
      · simp [View.turn, View.forwarded, View.texts, textsBy]
    · cases message with
      | text | binary =>
        exact ⟨rfl, [], by simp [View.turn, View.forwarded, View.texts, textsBy],
          fun h => absurd rfl h⟩
      | ping text =>
        by_cases hle : text.utf8ByteSize ≤ maxPingBytes
        · have hnot : ¬ maxPingBytes < text.utf8ByteSize := Nat.not_lt.mpr hle
          refine ⟨?_, [], ?_, fun h => absurd rfl h⟩
          · simp [View.turn, View.forwarded, Step.endsSocket, hle, hnot]
          · simp [View.turn, View.forwarded, View.texts, textsBy, hle, Frame.event?]
        · have hlt : maxPingBytes < text.utf8ByteSize := Nat.lt_of_not_le hle
          refine ⟨?_, [], ?_, fun h => absurd rfl h⟩
          · simp [View.turn, View.forwarded, Step.endsSocket, hle, hlt]
          · simp [View.turn, View.forwarded, View.texts, textsBy, hle, Frame.event?]
  | closeSocket j abrupt =>
    cases hx
    have hends : (Step.closeSocket i abrupt).endsSocket i = true := decide_eq_true rfl
    rw [hends]
    cases abrupt with
    | true =>
      -- what has not been read is gone
      refine ⟨?_, sent.toList.filterMap Frame.event?, ?_, fun _ => ⟨rfl, ?_, ?_⟩⟩
      all_goals rcases hh with rfl | ⟨rfl, category, rfl⟩ <;> rfl
    | false =>
      rcases hh with rfl | ⟨rfl, category, rfl⟩
      all_goals exact ⟨rfl, [], by simp [View.turn, View.forwarded, View.texts, textsBy,
        Frame.event?], fun h => absurd rfl h⟩
  | _ => cases hx

/-- What the socket is told when its peer takes a step. -/
theorem AtRest.told_own (hs : s.AtRest) (hi : i < s.sockets.length)
    (hx : x.listener? = some (.socket i)) (hstep : s.step x = .ok (a, s')) :
    s'.heard (.socket i) = (if x.endsSocket i then none else s.heard (.socket i)) ∧
      Told i [x] [a] [] s s' := by
  obtain ⟨-, ha, hview, -⟩ := hs.turned hx hstep
  obtain ⟨sent, hsent⟩ := exists_sent hi
  obtain ⟨hheard, lost, hbalance, hlost⟩ := turn_told hx (heard_cases hs hi)
    (show s.view (.socket i) = ⟨s.heard (.socket i), some sent⟩ by rw [view, hsent]) hview ha
  refine ⟨hheard, ⟨lost, ?_, fun hne => ?_⟩, fun hn => ⟨?_, rfl⟩⟩
  · rw [List.map_nil, List.append_nil, ← hbalance]
    exact congrArg (· ++ _ ++ lost) (List.append_nil _)
  · obtain ⟨rfl, hgone⟩ := hlost hne
    exact ⟨List.mem_singleton_self _, hgone⟩
  · refine hheard.trans ?_
    rw [hn]
    split <;> rfl

/-- Nobody but the socket notices what its peer does: the first session may be ahead with it, and
the second may catch up. -/
theorem Accompanies.turn {line : Option (String × List DeliveredEvent)}
    (h : Accompanies i k line s t) (hs : s.AtRest) (hx : x.listener? = some (.socket i))
    (hstep : s.step x = .ok (a, s')) : Accompanies i k line s' t := by
  obtain ⟨hstreamed, -, -, hothers⟩ := hs.turned hx hstep
  exact h.streamed hstreamed (.refl t) (fun l hl => (hothers l hl).trans (h.others l hl)) h.own

theorem Accompanies.catch_up {line : Option (String × List DeliveredEvent)}
    (h : Accompanies i k line s t) (ht : t.AtRest) (hx : x.listener? = some (.socket i)) :
    ∃ a t', t.step x = .ok (a, t') ∧ t'.AtRest ∧ Accompanies i k line s t' := by
  obtain ⟨a, t', hstep, hstreamed, -, -, hothers⟩ := ht.step_turned hx
  refine ⟨a, t', hstep, ht.step (fun _ => outlivesBroker_of_listener hx) hstep,
    h.streamed (.refl s) hstreamed (fun l hl => ?_) ?_⟩
  · have hne : l.shift k ≠ .socket i := by
      cases l with
      | subscriber n => exact fun he => by cases he
      | socket j => exact hl
    exact (h.others l hl).trans (hothers _ hne).symm
  · exact (hothers _ fun he => by cases he).trans h.own

/-- Messages that keep the rules leave the connection as it is. -/
theorem endsSocket_of_isInbound (hx : x.isInbound i = true) : x.endsSocket i = false := by
  cases x with
  | send j message =>
    cases message with
    | ping text => simp_all [Step.isInbound, Step.endsSocket]
    | text | binary => rfl
  | _ => cases hx

theorem alongside_of_isInbound (hx : x.isInbound i = true) : x.alongside i k = [] := by
  cases x with
  | send => exact if_pos hx
  | _ => cases hx

/-- What the peer does, the subscriber does not notice, but it leaves with the connection. -/
theorem Accompanies.step_own (h : Accompanies i k (s.heard (.socket i)) s t) (hs : s.AtRest)
    (ht : t.AtRest) (hx : x.listener? = some (.socket i)) (hstep : s.step x = .ok (a, s')) :
    Relayed i k s t [x] [a] s' (x.alongside i k) := by
  have hrest := hs.step (fun _ => outlivesBroker_of_listener hx) hstep
  obtain ⟨hheard, htold⟩ := hs.told_own h.there hx hstep
  have hahead := h.turn hs hx hstep
  by_cases hin : x.isInbound i = true
  · rw [endsSocket_of_isInbound hin] at hheard
    rw [alongside_of_isInbound hin]
    exact ⟨[], t, rfl, hrest, ht, (show s'.heard _ = _ from hheard) ▸ hahead, htold⟩
  rw [Bool.not_eq_true] at hin
  have hadv : ∀ ms, x ≠ .advance ms := by
    rintro ms rfl
    cases hx
  have hshift : x.shift k = x := by
    cases x with
    | readSocket | send | closeSocket => rfl
    | _ => cases hx
  obtain ⟨a', t₁, ht₁, hrest₁, hacc⟩ := hahead.catch_up ht hx
  have hleave : (if x.endsSocket i then none else drained (s.heard (.socket i))) =
      s'.heard (.socket i) := by
    rw [hs.drained_heard h.there]
    exact hheard.symm
  obtain ⟨answers, t₂, hrun, hrest₂, hacc₂, hgot⟩ := hacc.fetch hrest₁ (x.endsSocket i) hleave
  have hnothing : receivedBy k (x, a') = [] := by
    rw [← hshift]
    exact receivedBy_shift k x a'
  rw [alongside_eq hadv hin, hshift]
  refine ⟨_, t₂, run_cons_eq_ok_iff.mpr ⟨_, t₁, answers, ht₁, hrun, rfl⟩, hrest, hrest₂, hacc₂, ?_⟩
  rw [received_cons, hnothing, List.nil_append, hgot, hs.waitingIn_heard h.there]
  exact htold

/-! ## Runs -/

/-- Every step. -/
theorem Accompanies.step (h : Accompanies i k (s.heard (.socket i)) s t) (hs : s.AtRest)
    (ht : t.AtRest) (hd : s.broker.gateway.dropped = true → x.outlivesBroker = true)
    (hstep : s.step x = .ok (a, s')) : Relayed i k s t [x] [a] s' (x.alongside i k) := by
  by_cases hx : x.listener? = some (.socket i)
  · exact h.step_own hs ht hx hstep
  by_cases hadv : ∃ ms, x = .advance ms
  · obtain ⟨ms, rfl⟩ := hadv
    exact h.step_advance hs ht hstep
  · exact h.step_aside hs ht (fun ms he => hadv ⟨ms, he⟩) hx hd hstep

theorem Accompanies.run {steps : List Step} {answers : List Answer}
    (h : Accompanies i k (s.heard (.socket i)) s t) (hs : s.AtRest) (ht : t.AtRest)
    (hsensible : Sensible steps)
    (hd : s.broker.gateway.dropped = true → ∀ x ∈ steps, x.outlivesBroker = true)
    (hr : s.run steps = .ok (answers, s')) :
    Relayed i k s t steps answers s' (steps.flatMap (Step.alongside i k)) := by
  induction steps generalizing s t answers with
  | nil =>
    cases hr
    exact ⟨[], t, rfl, hs, ht, h, .of_texts rfl (List.append_nil _).symm fun hn => ⟨hn, rfl⟩⟩
  | cons x rest ih =>
    obtain ⟨a, mid, later, hstep, htail, rfl⟩ := run_cons_eq_ok_iff.mp hr
    have hfirst := fun hdropped => hd hdropped x List.mem_cons_self
    obtain ⟨hrest, hafter⟩ :=
      hsensible.step hs.streaming hd (step_leads hs.streaming hs.linked hfirst hstep).1
    rw [List.flatMap_cons]
    exact (h.step hs ht hfirst hstep).trans rfl fun t' hmid ht' hacc =>
      ih hacc hmid ht' hrest hafter htail

end Session

end EventBroker
