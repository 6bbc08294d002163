import EventBroker.Proofs.Beats

/-! # Punctuality

At every beat the driver falls asleep for at most one tick (`FallsAsleep`), so no rule stays due for
longer (`Ready.due_for_at_most`). As long as the wall clock is not set it is `Punctual`: nothing it
leaves armed is due, and it sleeps no longer than until the first rule is. What was armed while it
slept then fires at its very time (`Punctual.fires_on_time`), and what is submitted at its time or
at once (`Punctual.fires_submitted`).
-/
set_option autoImplicit false

namespace EventBroker.Session

variable {s s' found left : Session} {x : Step} {a : Answer} {r : ArmedRule} {f : Firing}
variable {tick deadline : Nat} {calm : Bool}

/-! ## Falling asleep -/

/-- The tasks come to an end, and the driver then sleeps for at most one tick: it sleeps on, or its
loop has ended after one round or two. -/
def FallsAsleep (tick : Nat) (found : Session) : Prop :=
  ∃ left deadline, found.settle = .ok left ∧ left.driver = some deadline ∧
    found.moment.mono < deadline ∧ deadline ≤ found.moment.mono + tick ∧
    ((found.driver = some deadline ∧ found.broker.wakeup = false) ∨
      ∃ plans, Sleeps found.moment found.broker plans (deadline, found.runDriver.broker) ∧
        plans.length ≤ 2 ∧
        ∀ plan ∈ plans, found.moment.mono < plan ∧ plan ≤ found.moment.mono + tick)

theorem Ready.fallsAsleep (h : Ready tick deadline found) (hs : found.settle = .ok left) :
    FallsAsleep tick found := by
  obtain ⟨plan, hleft⟩ := h.settle hs
  have hm := settle_moment h.linked hs
  have hahead := hleft.ahead
  have hnear := hleft.near
  rw [hm] at hahead hnear
  refine ⟨left, plan, hs, hleft.driver, hahead, hnear, ?_⟩
  have hd := (settle_settled h.linked hs).driver
  rw [hleft.driver] at hd
  simp only [runDriver, h.driver] at hd ⊢
  split at hd
  · next hw =>
    right
    rw [if_pos hw]
    obtain rfl : plan = (driverRun found.broker found.moment).1 := Option.some.inj hd
    have hsleeps := driverRun_sleeps h.ordered (h.maxTick ▸ h.positive) found.moment
    rwa [h.maxTick] at hsleeps
  · next hw =>
    left
    simp only [Bool.or_eq_true, decide_eq_true_eq, not_or, Bool.not_eq_true] at hw
    exact ⟨h.driver.symm.trans hd.symm, hw.1⟩

/-- As long as the tasks find a rule due that stays armed, the driver has not woken up. -/
theorem Asleep.slept_through {beats : List Session} (h : Asleep tick deadline s)
    (hb : Beating calm s beats s')
    (hdue : ∀ found ∈ beats, r ∈ found.broker.agenda.rules ∧ r.fireAt ≤ found.moment.now)
    (hr : r ∈ s'.broker.agenda.rules) : Asleep tick deadline s' := by
  induction hb with
  | rest => exact h
  | @beat s found left s' beats hb hs hrest ih =>
    rw [List.forall_mem_cons] at hdue
    have hready := h.ready hb
    -- a driver that wakes up fires the rule, which is then not armed at the end
    rcases hready.settle_cases hs with ⟨plan, hleft, hplan⟩ | ⟨-, -, hleft⟩
    · have hlt : r.order < left.broker.agenda.nextOrder :=
        Nat.lt_of_lt_of_le (hready.ordered.below r hdue.1.1)
          (settle_succeeds hready.linked hs).nextOrder
      have hmem := (hleft.succeeds hrest).mem_of_order_lt hr hlt
      have hlater := hplan.later r hmem
      rw [settle_moment hready.linked hs] at hlater
      exact absurd hdue.1.2 (Nat.not_le.mpr hlater)
    · exact ih hleft hdue.2 hr

/-- A rule that is due from one beat to another was due for at most one tick. -/
theorem Ready.due_for_at_most {between : List Session} {last : Session}
    (h : Ready tick deadline found) (hs : found.settle = .ok left)
    (hb : Beating calm left (between ++ [last]) s')
    (hdue : ∀ t ∈ found :: between ++ [last], r ∈ t.broker.agenda.rules ∧ r.fireAt ≤ t.moment.now) :
    last.moment.mono ≤ found.moment.mono + tick := by
  obtain ⟨plan, hleft⟩ := h.settle hs
  obtain ⟨mid, hmid, hend⟩ := hb.split
  cases hend with
  | beat hbetween hs' hrest =>
    obtain ⟨plan', hasleep⟩ := hleft.beating hmid
    have hfound := hdue found (by simp)
    have hlast := hdue last (by simp)
    have hlt : r.order < mid.broker.agenda.nextOrder :=
      Nat.lt_of_lt_of_le (h.ordered.below r hfound.1)
        ((settle_succeeds h.linked hs).trans (hleft.succeeds hmid)).nextOrder
    have hmem := (hbetween.changes hasleep.linked).1.mem_of_order_lt hlast.1 hlt
    have hslept := hleft.slept_through hmid (fun t ht => hdue t (by simp [ht])) hmem
    have hahead := hslept.ahead
    have hnear := hleft.near
    have hmono := hbetween.mono.2
    rw [settle_moment h.linked hs] at hnear
    omega

theorem Ready.due_in_infix {first last : Session} {between beats : List Session}
    (h : Ready tick deadline found) (hs : found.settle = .ok left)
    (hb : Beating calm left beats s') (hseg : first :: between ++ [last] <:+: found :: beats)
    (hdue : ∀ t ∈ first :: between ++ [last],
      r ∈ t.broker.agenda.rules ∧ r.fireAt ≤ t.moment.now) :
    last.moment.mono ≤ first.moment.mono + tick := by
  obtain ⟨pre, suf, he⟩ := hseg
  cases pre with
  | nil =>
    obtain ⟨rfl, rfl⟩ := List.cons.inj he
    obtain ⟨mid, hmid, -⟩ := hb.split
    exact h.due_for_at_most hs hmid hdue
  | cons _ pre =>
    obtain ⟨plan, hleft⟩ := h.settle hs
    have hbeats : beats = pre ++ (first :: between ++ [last]) ++ suf := (List.cons.inj he).2.symm
    rw [hbeats, List.append_assoc] at hb
    obtain ⟨mid, hmid, hend⟩ := hb.split
    obtain ⟨plan', hasleep⟩ := hleft.beating hmid
    cases hend with
    | beat hbetween hs' hrest =>
      obtain ⟨mid', hmid', -⟩ := hrest.split
      exact (hasleep.ready hbetween).due_for_at_most hs' hmid' hdue

/-! ## Punctuality -/

/-- A sleeping driver has left nothing armed that is due, and will wake up before anything is, as
long as the clocks run together. -/
structure Punctual (tick deadline : Nat) (s : Session) : Prop extends Asleep tick deadline s where
  later : ∀ r ∈ s.broker.agenda.rules, s.moment.now < r.fireAt
  first : ∀ r ∈ s.broker.agenda.rules,
    deadline + s.moment.wall ≤ s.moment.mono + (r.fireAt : Int)

theorem Punctual.of_planned (h : Asleep tick deadline s)
    (hp : Planned s.moment tick s.broker.agenda deadline) : Punctual tick deadline s where
  toAsleep := h
  later := hp.later
  first := by
    intro r hr
    have hwall : s.moment.wall ≤ s.moment.now := Int.self_le_toNat s.moment.wall
    have := hp.first r hr
    omega

/-- If the driver sleeps on, nothing was armed and its time has not come, so no rule has become due.
-/
theorem Punctual.beat (h : Punctual tick deadline s) (hb : Between true s found)
    (hs : found.settle = .ok left) : ∃ plan, Punctual tick plan left := by
  have hready := h.ready hb
  rcases hready.settle_cases hs with ⟨plan, hleft, hplan⟩ | ⟨hw, ha, hleft⟩
  · exact ⟨plan, .of_planned hleft hplan⟩
  · have hm := settle_moment hready.linked hs
    have hahead := hleft.ahead
    -- the wall clock may read below zero, so `first` is about its true value and not about `now`
    have hrule : ∀ r ∈ left.broker.agenda.rules, left.moment.now < r.fireAt ∧
        deadline + left.moment.wall ≤ left.moment.mono + (r.fireAt : Int) := by
      intro r hr
      rw [ha] at hr
      have hold : r ∈ s.broker.agenda.rules := by
        rcases (hb.changes h.linked).2.rules r hr with hr | hr
        · exact hr
        · cases hw.symm.trans hr
      have hlater := h.later r hold
      have hfirst := h.first r hold
      rw [hm] at hahead ⊢
      rcases hb.moment with rfl | he
      · simp only [Moment.now, Moment.after] at *
        omega
      · rw [he]
        exact ⟨hlater, hfirst⟩
    exact ⟨deadline, hleft, fun r hr => (hrule r hr).1, fun r hr => (hrule r hr).2⟩

theorem Punctual.beating {beats : List Session} (h : Punctual tick deadline s)
    (hb : Beating true s beats s') : ∃ plan, Punctual tick plan s' := by
  induction hb generalizing deadline with
  | rest => exact ⟨deadline, h⟩
  | beat hb hs _ ih =>
    obtain ⟨plan, h⟩ := h.beat hb hs
    exact ih h

/-! ## What fires, and when -/

/-- What the driver fires at a beat has come due with the millisecond that passed, or was armed just
now. -/
theorem Punctual.fires (h : Punctual tick deadline s) (hb : Between true s found)
    (hf : f ∈ found.driverFirings) :
    (f.rule ∈ s.broker.agenda.rules ∧ f.event.firedAt = f.rule.fireAt) ∨
      (f.rule ∉ s.broker.agenda.rules ∧ f.event.firedAt = s.moment.now ∧
        f.rule.fireAt ≤ s.moment.now) := by
  obtain ⟨hm, hdue, hat⟩ := due_of_driverDeeds hf
  by_cases hr : f.rule ∈ s.broker.agenda.rules
  · have hlater := h.later f.rule hr
    refine .inl ⟨hr, ?_⟩
    rcases hb.moment with rfl | he
    · simp only [Moment.now, Moment.after] at *
      omega
    · rw [he] at hdue
      omega
  · rcases hb.moment with rfl | he
    · exact absurd hm hr
    · rw [he] at hdue hat
      exact .inr ⟨hr, hat, hdue⟩

/-- What was armed while the driver slept fires at its very time. -/
theorem Punctual.fires_on_time {beats : List Session} (h : Punctual tick deadline s)
    (hb : Beating true s beats s') (hfound : found ∈ beats) (hf : f ∈ found.driverFirings)
    (hr : f.rule ∈ s.broker.agenda.rules) : f.event.firedAt = f.rule.fireAt := by
  obtain ⟨mid, left, earlier, later, hmid, hbetween, -, -⟩ := hb.split_of_mem hfound
  obtain ⟨plan, hpunctual⟩ := h.beating hmid
  have hlt : f.rule.order < mid.broker.agenda.nextOrder :=
    Nat.lt_of_lt_of_le (h.ordered.below f.rule hr) (h.toAsleep.succeeds hmid).nextOrder
  have hmem : f.rule ∈ mid.broker.agenda.rules :=
    (hbetween.changes hpunctual.linked).1.mem_of_order_lt (due_of_driverDeeds hf).1 hlt
  rcases hpunctual.fires hbetween hf with ⟨-, he⟩ | ⟨hn, -⟩
  · exact he
  · exact absurd hmem hn

/-- A step that arms something takes no time. -/
theorem Arms.moment (h : s.broker.Linked) (harms : s.Arms x r) (hd : x.isDriver = false)
    (hs : s.step x = .ok (a, s')) : s'.moment = s.moment := by
  obtain ⟨acted, ha, ht⟩ := step_eq_ok_iff.mp hs
  have hacted := act_acted (harms.ne_advance h) (Step.isDrop_of_isDriver hd) ha
  rw [settle_moment (linked_act h ha) ht, hacted.moment harms.setsWall]

theorem Arms.beats (h : s.broker.Linked) (harms : s.Arms x r) (hd : x.isDriver = false)
    (hs : s.step x = .ok (a, s')) (hf : found ∈ s.beats x) : Between true s found := by
  obtain ⟨acted, ha, -⟩ := step_eq_ok_iff.mp hs
  have hi : s.innerBeats x = [] := by
    cases x with
    | advance ms => exact absurd rfl (harms.ne_advance h ms)
    | _ => rfl
  simp only [Session.beats, ha, hi, List.nil_append, List.mem_singleton] at hf
  subst hf
  exact .acted (harms.ne_advance h) hd (fun _ => harms.setsWall) ha

/-- Whatever is submitted while the driver sleeps fires at its time, or at once if that has passed.
-/
theorem Punctual.fires_submitted {steps : List Step} {answers : List Answer}
    {y : Session × Step} (h : Punctual tick deadline s) (hd : ∀ x ∈ steps, x.isDriver = false)
    (hw : ∀ x ∈ steps, x.setsWall = false) (hr : s.run steps = .ok (answers, s'))
    (hfound : found ∈ s.runBeats steps) (hf : f ∈ found.driverFirings) (hy : y ∈ s.trail steps)
    (harms : y.1.Arms y.2 f.rule) :
    f.event.firedAt = max f.rule.fireAt y.1.moment.now := by
  induction steps generalizing s deadline answers with
  | nil => cases hy
  | cons x rest ih =>
    rw [List.forall_mem_cons] at hd hw
    obtain ⟨a, mid, later, hx, hr, -⟩ := run_cons_eq_ok_iff.mp hr
    have hfirst : Beating true s (s.beats x) mid :=
      beating_step h.isWaiting hd.1 (fun _ => hw.1) hx
    obtain ⟨plan, hmid⟩ := h.beating hfirst
    have hlater : Beating true mid (mid.runBeats rest) s' :=
      hmid.toAsleep.beating_run hd.2 (fun _ => hw.2) hr
    rw [runBeats_cons hx, List.mem_append] at hfound
    rw [trail_eq hx, List.mem_cons] at hy
    have hrule := (due_of_driverDeeds hf).1
    rcases hfound with hfound | hfound <;> rcases hy with rfl | hy
    -- armed and fired in this step
    · have hbetween := harms.beats h.linked hd.1 hx hfound
      rcases h.fires hbetween hf with ⟨hm, -⟩ | ⟨-, he, hdue⟩
      · exact absurd hm harms.1
      · exact he.trans (Nat.max_eq_right hdue).symm
    -- fired in this step and armed later: its order would be too large
    · obtain ⟨⟨plan', left, hready, -⟩, -, hsucceeds⟩ := h.toAsleep.of_mem_beats hfirst hfound
      have hdrop : ∀ x ∈ rest, x.isDrop = false :=
        fun x hm => Step.isDrop_of_isDriver (hd.2 x hm)
      have hlo := (harms.order_in_run hmid.linked hdrop hr hy).1
      have hhi := Nat.lt_of_lt_of_le (hready.ordered.below f.rule hrule) hsucceeds.nextOrder
      omega
    -- armed in this step and fired later: it is still armed when the driver falls asleep
    · have hhi := (harms.order h.linked (Step.isDrop_of_isDriver hd.1) hx).2
      have hmem := (hmid.toAsleep.of_mem_beats hlater hfound).2.1.mem_of_order_lt hrule hhi
      have hnext := hmid.later f.rule hmem
      rw [harms.moment h.linked hd.1 hx] at hnext
      exact (hmid.fires_on_time hlater hfound hf hmem).trans
        (Nat.max_eq_left (Nat.le_of_lt hnext)).symm
    · exact ih hmid hd.2 hw.2 hr hfound hy

end EventBroker.Session
