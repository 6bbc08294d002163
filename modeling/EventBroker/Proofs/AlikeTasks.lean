import EventBroker.Proofs.AlikeSessions

/-! # Tasks of sessions that look alike

The tasks leave sessions alike that were alike (`Alike.settle`), and so does time that passes. If
somebody in a session at rest has done something that nobody else noticed, then running the tasks is
not noticed either (`AtRest.settle_unnoticed`): nothing was due, and nothing waited to be sent.
-/
set_option autoImplicit false

namespace EventBroker.Session
open Broker

variable {o : Observers} {s s' t : Session} {apart : ChannelId → Bool} {b b' : Broker}
  {m : Moment} {r : Reaper}

/-! ## The driver -/

/-- A round of the driver fires the same and plans the same. -/
theorem Alike.driverRound (h : Alike o s s') (hl : s.broker.Linked) (hl' : s'.broker.Linked)
    (hs : s.broker.gateway.Serves s.held) (hs' : s'.broker.gateway.Serves s'.held)
    (hd : s.broker.gateway.dropped = false) :
    (driverRound s.broker s.moment).1 = (driverRound s'.broker s'.moment).1 ∧
      Alike o { s with broker := (Session.driverRound s.broker s.moment).2 }
        { s' with broker := (Session.driverRound s'.broker s'.moment).2 } := by
  have hnow : s.moment.now = s'.moment.now := by rw [h.moment]
  have hfired := (h.fireDue hl hl' hs hs' hd hnow h.moment).alike
  refine ⟨?_, hfired⟩
  rw [driverRound_plan, driverRound_plan, h.moment, h.broker.agenda, h.broker.maxTick]

theorem Paced.alive (h : s.Paced) {deadline : Nat} (hd : s.driver = some deadline) :
    s.broker.gateway.dropped = false := by
  cases hdropped : s.broker.gateway.dropped with
  | true =>
    rw [(h.streaming.ended hdropped).1] at hd
    cases hd
  | false => rfl

/-- After a round of the driver the broker is sound, and still there. -/
theorem driverRound_sound (h : s.Paced) (hd : s.broker.gateway.dropped = false) :
    (Session.driverRound s.broker s.moment).2.Linked ∧
      (Session.driverRound s.broker s.moment).2.gateway.Serves s.held ∧
      (Session.driverRound s.broker s.moment).2.gateway.dropped = false := by
  have ha : s.act (.fire none) = .ok (.number (s.broker.fireDue s.moment.now s.moment).1,
      { s with broker := (Session.driverRound s.broker s.moment).2 }) := rfl
  have hx : s.broker.gateway.dropped = true → Step.outlivesBroker (.fire none) = true := by
    rw [hd]
    exact fun hf => Bool.noConfusion hf
  have ht : ∀ ms, Step.fire none ≠ .advance ms := by
    rintro ms ⟨⟩
  have hleads := act_leads h.streaming h.linked ht hx ha
  have hkept := hleads.dropped h.streaming.serves fun d hm =>
    Action.isDrop_of_isOrdinary (callerDeeds_ordinary rfl hm)
  exact ⟨linked_act h.linked ha, hleads.serves h.streaming.serves, hkept.trans hd⟩

theorem Alike.driverRun (h : Alike o s s') (hp : s.Paced) (hp' : s'.Paced)
    (hd : s.broker.gateway.dropped = false) (hd' : s'.broker.gateway.dropped = false) :
    (driverRun s.broker s.moment).1 = (driverRun s'.broker s'.moment).1 ∧
      Alike o { s with broker := (Session.driverRun s.broker s.moment).2 }
        { s' with broker := (Session.driverRun s'.broker s'.moment).2 } := by
  obtain ⟨hplan, hfired⟩ := h.driverRound hp.linked hp'.linked hp.streaming.serves
    hp'.streaming.serves hd
  obtain ⟨hl, hs, hd⟩ := driverRound_sound hp hd
  obtain ⟨hl', hs', -⟩ := driverRound_sound hp' hd'
  have hwakeup : (Session.driverRound s.broker s.moment).2.wakeup =
      (Session.driverRound s'.broker s'.moment).2.wakeup := hfired.broker.wakeup
  unfold Session.driverRun
  cases hw : (Session.driverRound s.broker s.moment).2.wakeup with
  | false =>
    have hw' := hwakeup.symm.trans hw
    simp only [hw, hw', Bool.false_eq_true, if_false]
    exact ⟨hplan, hfired⟩
  | true =>
    have hw' := hwakeup.symm.trans hw
    simp only [hw, hw', if_true]
    -- the driver takes note of what was armed and fires once more
    have hnoted : Alike o
        { s with broker := { (Session.driverRound s.broker s.moment).2 with wakeup := false } }
        { s' with broker := { (Session.driverRound s'.broker s'.moment).2 with
          wakeup := false } } :=
      { hfired with
        broker := { hfired.broker with wakeup := rfl }
        views := hfired.views }
    exact hnoted.driverRound (hl.perform ⟨s.moment, .wake⟩) (hl'.perform ⟨s.moment, .wake⟩) hs hs'
      hd

theorem Alike.runDriver (h : Alike o s s') (hp : s.Paced) (hp' : s'.Paced) :
    Alike o s.runDriver s'.runDriver := by
  unfold Session.runDriver
  cases hdriver : s.driver with
  | none =>
    have hdriver' : s'.driver = none := h.driver ▸ hdriver
    simp only [hdriver']
    exact h
  | some deadline =>
    have hdriver' : s'.driver = some deadline := h.driver ▸ hdriver
    have hmono : s.moment.mono = s'.moment.mono := by rw [h.moment]
    simp only [hdriver', h.broker.wakeup, hmono]
    split
    · obtain ⟨hplan, hrun⟩ := h.driverRun hp hp' (hp.alive hdriver) (hp'.alive hdriver')
      exact { hrun with driver := congrArg some hplan }
    · exact h

/-! ## The reapers -/

theorem reaperRun_gateway (m : Moment) (r : Reaper) (b : Broker) :
    (reaperRun m r b).2.gateway = b.gateway := by
  unfold reaperRun
  split
  · split
    · simp only [Broker.reap]
      rw [foldl_closeChannel_eq]
    · rfl
  · rfl

theorem reaperRun_alike (h : Broker.Alike apart b b') (hl : b.Linked) (hl' : b'.Linked)
    (m : Moment) (r : Reaper) :
    Broker.Alike apart (reaperRun m r b).2 (reaperRun m r b').2 := by
  unfold reaperRun
  split
  · split
    · exact (h.reap hl.distinct hl'.distinct r.timeout m).2
    · exact h
  · exact h

/-- All reapers one after another. -/
theorem foldl_reaperRun_alike (h : Broker.Alike apart b b') (hl : b.Linked) (hl' : b'.Linked)
    (m : Moment) (reapers : List Reaper) :
    Broker.Alike apart (reapers.foldl (fun b r => (reaperRun m r b).2) b)
      (reapers.foldl (fun b r => (reaperRun m r b).2) b') := by
  induction reapers generalizing b b' with
  | nil => exact h
  | cons r rest ih =>
    exact ih (reaperRun_alike h hl hl' m r) (linked_reaperRun hl m r) (linked_reaperRun hl' m r)

theorem foldl_reaperRun_gateway (m : Moment) (reapers : List Reaper) (b : Broker) :
    (reapers.foldl (fun b r => (reaperRun m r b).2) b).gateway = b.gateway := by
  induction reapers generalizing b with
  | nil => rfl
  | cons r rest ih => rw [List.foldl_cons, ih, reaperRun_gateway]

theorem runReapers_view (s : Session) (l : Listener) : s.runReapers.view l = s.view l := by
  rw [runReapers_eq]
  refine view_congr rfl rfl fun sub _ => ?_
  rw [foldl_reaperRun_gateway]

theorem Alike.runReapers (h : Alike o s s') (hl : s.broker.Linked) (hl' : s'.broker.Linked) :
    Alike o s.runReapers s'.runReapers where
  supply := h.supply
  moment := h.moment
  driver := h.driver
  reapers := by rw [runReapers_eq, runReapers_eq s', h.reapers, h.moment]
  broker := by
    rw [runReapers_eq, runReapers_eq s', h.reapers, h.moment]
    exact foldl_reaperRun_alike h.broker hl hl' s'.moment s'.reapers
  subscriptions := h.subscriptions
  sockets := h.sockets
  views l hl := by rw [runReapers_view, runReapers_view, h.views l hl]

/-! ## All tasks -/

theorem runTasks_dropped (h : s.Streaming) :
    s.runDriver.runReapers.broker.gateway.dropped = s.broker.gateway.dropped := by
  have hdriven := (runDriver_leads h).dropped h.serves fun d hd => (driverDeeds_not_streaming hd).2
  rw [runReapers_eq, ← hdriven]
  exact congrArg Gateway.dropped (foldl_reaperRun_gateway _ _ _)

theorem Alike.settle (h : Alike o s s') (hp : s.Paced) (hp' : s'.Paced) : ∃ t t',
    s.settle = .ok t ∧ s'.settle = .ok t' ∧ Alike o t t' := by
  obtain ⟨t, hs, hstreamed, hviews⟩ := settle_sockets hp.streaming hp.linked
  obtain ⟨t', hs', hstreamed', hviews'⟩ := settle_sockets hp'.streaming hp'.linked
  have hlinked : s.runDriver.broker.Linked := s.runDriver_broker ▸ hp.linked.replay _
  have hlinked' : s'.runDriver.broker.Linked := s'.runDriver_broker ▸ hp'.linked.replay _
  have hreaped := (h.runDriver hp hp').runReapers hlinked hlinked'
  refine ⟨t, t', hs, hs', hreaped.streamed hstreamed hstreamed' fun l hl => ?_⟩
  rw [hviews, hviews', hreaped.views l hl, hreaped.broker.dropped]

/-- Time passes. -/
theorem Alike.pass (h : Alike o s s') (hr : s.AtRest) (hr' : s'.AtRest) (n : Nat) : ∃ t t',
    Session.pass n s = .ok t ∧ Session.pass n s' = .ok t' ∧ Alike o t t' := by
  induction n generalizing s s' with
  | zero => exact ⟨s, s', rfl, rfl, h⟩
  | succ n ih =>
    have htick : Alike o { s with moment := s.moment.after 1 }
        { s' with moment := s'.moment.after 1 } :=
      { h with moment := congrArg (·.after 1) h.moment }
    obtain ⟨mid, mid', hs, hs', hmid⟩ := htick.settle hr.tick hr'.tick
    obtain ⟨t, t', hp, hp', ht⟩ :=
      ih hmid (hr.tick.rest_of_settle hs) (hr'.tick.rest_of_settle hs')
    exact ⟨t, t', pass_succ_eq_ok_iff.mpr ⟨mid, hs, hp⟩, pass_succ_eq_ok_iff.mpr ⟨mid', hs', hp'⟩,
      ht⟩

theorem Alike.advance (h : Alike o s s') (hr : s.AtRest) (hr' : s'.AtRest) (ms : Nat) :
    ∃ t t', Session.advance ms s = .ok t ∧ Session.advance ms s' = .ok t' ∧ Alike o t t' := by
  have hwaiting : s.isWaiting = s'.isWaiting := by
    rw [isWaiting, isWaiting, h.driver, h.reapers]
  unfold Session.advance
  rw [← hwaiting]
  split
  · exact h.pass hr hr' ms
  · exact ⟨_, _, rfl, rfl, { h with moment := congrArg (·.after ms) h.moment }⟩

/-- What went unnoticed in a session at rest is not noticed when the tasks run, either. -/
theorem AtRest.settle_unnoticed (h : s.AtRest) (ha : Alike o s t) (hp : t.Paced) :
    ∃ u, t.settle = .ok u ∧ Alike o t u := by
  obtain ⟨u, hs, hstreamed, hviews⟩ := hp.settle_idle
    (h.idle.congr ha.driver.symm ha.reapers.symm ha.moment.symm ha.broker.wakeup.symm)
  refine ⟨u, hs, (Alike.refl o t).streamed (.refl t) hstreamed fun l hl => ?_⟩
  rw [hviews, ← ha.views l hl, ← ha.broker.dropped, h.flushed l]

end EventBroker.Session
