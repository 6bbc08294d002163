import EventBroker.Proofs.AlikeTasks

/-! # Observers do not disturb each other

Observers look at channels and listen to categories. A session in which some of them omit some of
their steps is to everyone else like the session in which they do not: at rest, a step of an
observer is followed by nothing that anyone else notices (`AtRest.step_unnoticed`), and a step of
someone else leads sessions that are alike to sessions that are alike (`Alike.step`). Over two whole
runs this is `observers_unnoticed`.
-/
set_option autoImplicit false

namespace EventBroker

/-- Some steps, each with whether it is kept or omitted. -/
abbrev Plan := List (Step × Bool)

namespace Plan

def steps (plan : Plan) : List Step := plan.map (·.1)

def kept (plan : Plan) : List Step := (plan.filter (·.2)).map (·.1)

/-- The steps that are kept, with the answers they got among all others. -/
def keptAnswers (plan : Plan) (answers : List Answer) : List (Step × Answer) :=
  ((plan.zip answers).filter (·.1.2)).map fun y => (y.1.1, y.2)

end Plan

/-- A step that no observer takes, and that takes no census, is answered the same. -/
def Observers.Spare (o : Observers) (y : Step × Answer) (a : Answer) : Prop :=
  o.take y.1 = false → y.1.isCensus = false → o.hide y.2 = o.hide a

namespace Session

variable {o : Observers} {s s' t : Session} {x : Step} {a : Answer}

/-! ## One step -/

/-- At rest, what an observer does is followed by nothing that anyone else notices. -/
theorem AtRest.step_unnoticed (h : s.AtRest)
    (hx : s.broker.gateway.dropped = true → x.outlivesBroker = true)
    (ho : o.take x = true ∨ x.isCensus = true) :
    ∃ a t, s.step x = .ok (a, t) ∧ Alike o s t := by
  have hact : ∃ a acted, s.act x = .ok (a, acted) ∧ Alike o s acted := by
    rcases ho with ho | ho
    · exact act_unnoticed h.streaming.serves h.linked.distinct ho
    · obtain ⟨a, ha⟩ := act_census ho
      exact ⟨a, s, ha, .refl o s⟩
  obtain ⟨a, acted, ha, halike⟩ := hact
  obtain ⟨t, hs, hsettled⟩ := h.settle_unnoticed halike (h.acted hx ha)
  exact ⟨a, t, step_eq_ok_iff.mpr ⟨acted, ha, hs⟩, halike.trans hsettled⟩

/-- What others do, they can do just as well in a session that is alike. -/
theorem Alike.acted (h : Alike o s s') (hr : s.AtRest) (hr' : s'.AtRest)
    (hx : s.broker.gateway.dropped = true → x.outlivesBroker = true) (ho : o.take x = false)
    (hc : x.isCensus = false) : Follows o (s.act x) (s'.act x) := by
  by_cases ht : ∃ ms, x = .advance ms
  · obtain ⟨ms, rfl⟩ := ht
    obtain ⟨later, later', hp, hp', hlater⟩ := h.advance hr hr' ms
    simp only [Session.act, hp, hp']
    exact .of_ok ⟨congrArg (fun m : Moment => o.hide (.number m.now)) hlater.moment, hlater⟩
  · exact h.act hr.toPaced hr'.toPaced (fun ms he => ht ⟨ms, he⟩) ho hc hx

/-- A step leads sessions that are alike to sessions that are alike. -/
theorem Alike.step (h : Alike o s s') (hr : s.AtRest) (hr' : s'.AtRest)
    (hx : s.broker.gateway.dropped = true → x.outlivesBroker = true)
    (hs : s.step x = .ok (a, t)) :
    ∃ a' t', s'.step x = .ok (a', t') ∧ Alike o t t' ∧ o.Spare (x, a) a' := by
  have hx' : s'.broker.gateway.dropped = true → x.outlivesBroker = true := by
    rw [← h.broker.dropped]
    exact hx
  by_cases ho : o.take x = true ∨ x.isCensus = true
  · obtain ⟨a₀, t₀, hs₀, ht⟩ := hr.step_unnoticed hx ho
    obtain ⟨a', t', hs', ht'⟩ := hr'.step_unnoticed hx' ho
    rw [hs] at hs₀
    cases hs₀
    refine ⟨a', t', hs', (ht.symm.trans h).trans ht', fun htake hcensus => ?_⟩
    rcases ho with ho | ho
    · exact absurd (htake.symm.trans ho) Bool.false_ne_true
    · exact absurd (hcensus.symm.trans ho) Bool.false_ne_true
  · obtain ⟨htake, hcensus⟩ := not_or.mp ho
    rw [Bool.not_eq_true] at htake hcensus
    obtain ⟨acted, ha, hsettle⟩ := step_eq_ok_iff.mp hs
    obtain ⟨⟨a', acted'⟩, ha', hagreed⟩ := h.acted hr hr' hx htake hcensus (a, acted) ha
    obtain ⟨t₀, t', hs₀, hs', ht'⟩ := hagreed.alike.settle (hr.acted hx ha) (hr'.acted hx' ha')
    rw [hsettle] at hs₀
    cases hs₀
    exact ⟨a', t', step_eq_ok_iff.mpr ⟨acted', ha', hs'⟩, ht', fun _ _ => hagreed.answer⟩

/-! ## Runs -/

/-- Two runs side by side, one with all steps and one with those that are kept. -/
theorem Alike.run {plan : Plan} {answers : List Answer} (h : Alike o s s') (hr : s.AtRest)
    (hr' : s'.AtRest) (ho : ∀ p ∈ plan, p.2 = false → o.take p.1 = true)
    (hs : Sensible plan.steps)
    (hx : s.broker.gateway.dropped = true → ∀ x ∈ plan.steps, x.outlivesBroker = true)
    (hrun : s.run plan.steps = .ok (answers, t)) : ∃ answers' t',
      s'.run plan.kept = .ok (answers', t') ∧
      List.Forall₂ o.Spare (plan.keptAnswers answers) answers' ∧ Alike o t t' := by
  induction plan generalizing s s' answers with
  | nil =>
    cases hrun
    exact ⟨[], s', rfl, .nil, h⟩
  | cons p rest ih =>
    obtain ⟨x, keep⟩ := p
    obtain ⟨a, mid, later, hstep, hlater, rfl⟩ := run_cons_eq_ok_iff.mp hrun
    rw [List.forall_mem_cons] at ho
    have hfirst : s.broker.gateway.dropped = true → x.outlivesBroker = true := fun hd =>
      hx hd x List.mem_cons_self
    have hmid := hr.step hfirst hstep
    obtain ⟨hrest, hafter⟩ := hs.step hr.streaming hx
      (step_leads hr.streaming hr.linked hfirst hstep).1
    cases keep with
    | false =>
      obtain ⟨a₀, t₀, hs₀, hunnoticed⟩ := hr.step_unnoticed hfirst (.inl (ho.1 rfl))
      rw [hstep] at hs₀
      cases hs₀
      exact ih (hunnoticed.symm.trans h) hmid hr' ho.2 hrest hafter hlater
    | true =>
      obtain ⟨a', mid', hstep', halike, hspare⟩ := h.step hr hr' hfirst hstep
      have hfirst' : s'.broker.gateway.dropped = true → x.outlivesBroker = true := by
        rw [← h.broker.dropped]
        exact hfirst
      obtain ⟨answers', t', hkept, hsame, ht⟩ := ih halike hmid (hr'.step hfirst' hstep') ho.2 hrest
        hafter hlater
      exact ⟨a' :: answers', t', run_cons_eq_ok_iff.mpr ⟨a', mid', answers', hstep', hkept, rfl⟩,
        .cons hspare hsame, ht⟩

/-- Observers do not disturb each other: where those on some channels and listeners omit some of
what they do, everyone else's steps are answered the same, and the sessions look alike in the
end. -/
theorem observers_unnoticed {settings : BrokerSettings} {b : Broker}
    (hb : Broker.new settings = .ok b) (supply : IdSupply) (m : Moment) (o : Observers)
    {plan : Plan} (ho : ∀ p ∈ plan, p.2 = false → o.take p.1 = true) (hs : Sensible plan.steps)
    {answers : List Answer} {final : Session}
    (hr : (Session.new supply b m).run plan.steps = .ok (answers, final)) :
    ∃ answers' final', (Session.new supply b m).run plan.kept = .ok (answers', final') ∧
      List.Forall₂ o.Spare (plan.keptAnswers answers) answers' ∧ Alike o final final' := by
  have hrest := AtRest.new hb supply m
  refine (Alike.refl o _).run hrest hrest ho hs (fun hd => ?_) hr
  rw [Broker.new_eq hb] at hd
  cases hd

/-- One channel is read and deleted, and one subscriber listens and leaves, or they never do. The
other channel and the other subscriber see both events either way. -/
def observing : Plan :=
  [(.createQueue "jobs", true), (.createChannel ["jobs"] ⟨0, 1⟩, true),
    (.createChannel ["jobs"] ⟨0, 1⟩, true), (.subscribe "jobs", true), (.subscribe "jobs", true),
    (.submit ⟨[65], none, [⟨"jobs", 0, none⟩]⟩, true), (.fire none, true),
    (.dequeue "00000000-0000-0000-0000-000000000000", false), (.receiveOne 0, false),
    (.unsubscribe 0, false), (.dequeue "00000000-0000-0000-0000-000000000001", true),
    (.receive 1 none, true), (.submit ⟨[66], none, [⟨"jobs", 0, none⟩]⟩, true), (.fire none, true),
    (.deleteChannel "00000000-0000-0000-0000-000000000000", false), (.receive 1 none, true),
    (.getQueue "jobs", true), (.reap 0, true)]

theorem observers_unnoticed_once : ∃ b answers final answers' final',
    Broker.new { channelCapacity := 1, subscriberCapacity := 1 } = .ok b ∧
      (Session.new .counting b ⟨0, 0⟩).run observing.steps = .ok (answers, final) ∧
      (Session.new .counting b ⟨0, 0⟩).run observing.kept = .ok (answers', final') ∧
      final.broker.metrics.overflowDropped = 0 ∧ final'.broker.metrics.overflowDropped = 1 ∧
      final.broker.metrics.streamDropped = 0 ∧ final'.broker.metrics.streamDropped = 1 ∧
      List.Forall₂ (Observers.Spare ⟨(· == ⟨Uuid.ofNat 0⟩), (· == .subscriber 0)⟩)
        (observing.keptAnswers answers) answers' := by
  obtain ⟨b, hb⟩ : ∃ b,
      Broker.new { channelCapacity := 1, subscriberCapacity := 1 } = .ok b := ⟨_, rfl⟩
  obtain ⟨answers, final, hr, hp⟩ := of_endsWith
    (r := (Session.new .counting b ⟨0, 0⟩).run observing.steps)
    (p := fun _ s => s.broker.metrics.overflowDropped == 0 &&
      s.broker.metrics.streamDropped == 0) (by cases hb; decide +kernel)
  obtain ⟨fewer, last, hkept, hp'⟩ := of_endsWith
    (r := (Session.new .counting b ⟨0, 0⟩).run observing.kept)
    (p := fun _ s => s.broker.metrics.overflowDropped == 1 &&
      s.broker.metrics.streamDropped == 1) (by cases hb; decide +kernel)
  simp only [Bool.and_eq_true, beq_iff_eq] at hp hp'
  have hs : Sensible observing.steps := by
    unfold Sensible
    decide
  obtain ⟨answers', final', hr', hspare, -⟩ := observers_unnoticed hb .counting ⟨0, 0⟩
    ⟨(· == ⟨Uuid.ofNat 0⟩), (· == .subscriber 0)⟩ (by decide +kernel) hs hr
  rw [hkept] at hr'
  cases hr'
  exact ⟨b, answers, final, fewer, last, hb, hr, hkept, hp.1, hp'.1, hp.2, hp'.2, hspare⟩

end Session

end EventBroker
