import EventBroker.Proofs.DriverLoop
import EventBroker.Proofs.SessionFrames

/-! # A driver from beat to beat

Between two times that the tasks run, a millisecond passes, the caller takes a step that takes no
time, or nothing happens (`Between`). A run in which the driver is neither started nor stopped is a
chain of such changes, each with the tasks after it (`Beating`, `Asleep.beating_run`).

The tasks find the driver `Ready`: it wakes up within one tick. They leave it `Asleep`: it wakes up
later than now, within one tick, and nothing was armed of which it took no note. Either it has fired
what was due and planned anew, or it was not yet time and nothing was touched
(`Ready.settle_cases`).
-/
set_option autoImplicit false

namespace EventBroker.Session

/-! ## Arming and passing time -/

/-- Whether a step puts a rule on the agenda. -/
def Arms (s : Session) (x : Step) (r : ArmedRule) : Prop :=
  r ∉ s.broker.agenda.rules ∧
    ∃ a acted, s.act x = .ok (a, acted) ∧ r ∈ acted.broker.agenda.rules

/-- The sessions that the tasks find in the course of a run. -/
def runBeats (s : Session) (steps : List Step) : List Session :=
  (s.trail steps).flatMap fun y => y.1.beats y.2

/-- What the driver fires when the tasks run. -/
def driverFirings (s : Session) : List Firing := firings (s.broker.journal s.driverDeeds)

variable {s s' found left : Session} {x : Step} {a : Answer} {r : ArmedRule}

theorem runBeats_cons (hx : s.step x = .ok (a, s')) (rest : List Step) :
    s.runBeats (x :: rest) = s.beats x ++ s'.runBeats rest := by
  simp only [runBeats, trail_eq hx, List.flatMap_cons]

theorem runDriver_rules (s : Session) :
    s.runDriver.broker.agenda.rules ⊆ s.broker.agenda.rules := by
  have hround : ∀ b : Broker, (driverRound b s.moment).2.agenda.rules ⊆ b.agenda.rules := by
    intro b r hr
    rw [driverRound_agenda] at hr
    exact Agenda.mem_of_mem_left hr
  unfold runDriver
  split
  · exact List.Subset.refl _
  split
  · unfold driverRun
    simp only
    split
    · exact List.Subset.trans (hround _) (hround _)
    · exact hround _
  · exact List.Subset.refl _

theorem settle_rules (h : s.broker.Linked) (hs : s.settle = .ok s') :
    s'.broker.agenda.rules ⊆ s.broker.agenda.rules := by
  rw [(settle_settled h hs).agenda]
  exact s.runDriver_rules

/-- While time passes nothing is armed. -/
theorem pass_rules {n : Nat} (h : s.broker.Linked) (hp : pass n s = .ok s') :
    s'.broker.agenda.rules ⊆ s.broker.agenda.rules ∧
      ∀ found ∈ passBeats n s, found.broker.agenda.rules ⊆ s.broker.agenda.rules := by
  induction n generalizing s with
  | zero =>
    cases hp
    exact ⟨List.Subset.refl _, fun _ hf => absurd hf List.not_mem_nil⟩
  | succ n ih =>
    obtain ⟨mid, hs, hrest⟩ := pass_succ_eq_ok_iff.mp hp
    have hmid : mid.broker.agenda.rules ⊆ s.broker.agenda.rules :=
      settle_rules (s := { s with moment := s.moment.after 1 }) h hs
    have hl : mid.broker.Linked :=
      linked_settle (s := { s with moment := s.moment.after 1 }) h hs
    obtain ⟨hend, hbeats⟩ := ih hl hrest
    refine ⟨List.Subset.trans hend hmid, ?_⟩
    simp only [passBeats, hs, List.forall_mem_cons]
    exact ⟨List.Subset.refl _, fun found hf => List.Subset.trans (hbeats found hf) hmid⟩

theorem advance_rules {ms : Nat} (h : s.broker.Linked) (hp : s.advance ms = .ok s') :
    s'.broker.agenda.rules ⊆ s.broker.agenda.rules := by
  unfold advance at hp
  split at hp
  · exact (pass_rules h hp).1
  · cases hp
    exact List.Subset.refl _

/-- What the tasks find armed in the course of a step was armed before it or is armed by it. -/
theorem arms_of_mem_beat (h : s.broker.Linked) (hf : found ∈ s.beats x)
    (hs : s.step x = .ok (a, s')) (hr : r ∈ found.broker.agenda.rules) :
    r ∈ s.broker.agenda.rules ∨ s.Arms x r := by
  obtain ⟨acted, ha, -⟩ := step_eq_ok_iff.mp hs
  simp only [beats, ha, List.mem_append, List.mem_singleton] at hf
  rcases hf with hf | rfl
  · left
    cases x with
    | advance ms =>
      obtain ⟨end', hp, -⟩ := map_eq_ok_iff.mp ha
      simp only [innerBeats] at hf
      split at hf
      · next hw =>
        rw [advance, if_pos hw] at hp
        exact (pass_rules h hp).2 found hf hr
      · cases hf
    | _ => cases hf
  · by_cases hm : r ∈ s.broker.agenda.rules
    · exact .inl hm
    · exact .inr ⟨hm, a, found, ha, hr⟩

theorem arms_of_mem_step (h : s.broker.Linked) (hs : s.step x = .ok (a, s'))
    (hr : r ∈ s'.broker.agenda.rules) : r ∈ s.broker.agenda.rules ∨ s.Arms x r := by
  obtain ⟨acted, ha, ht⟩ := step_eq_ok_iff.mp hs
  have hacted := settle_rules (linked_act h ha) ht hr
  by_cases hm : r ∈ s.broker.agenda.rules
  · exact .inl hm
  · exact .inr ⟨hm, a, acted, ha, hacted⟩

/-- What is armed in the end was armed in the beginning or is armed by a step of the run. -/
theorem arms_of_mem_run {steps : List Step} {answers : List Answer} (h : s.broker.Linked)
    (hrun : s.run steps = .ok (answers, s')) (hr : r ∈ s'.broker.agenda.rules) :
    r ∈ s.broker.agenda.rules ∨ ∃ y ∈ s.trail steps, y.1.Arms y.2 r := by
  induction steps generalizing s answers with
  | nil =>
    cases hrun
    exact .inl hr
  | cons x rest ih =>
    obtain ⟨a, mid, later, hx, hrun, -⟩ := run_cons_eq_ok_iff.mp hrun
    simp only [trail_eq hx, List.exists_mem_cons_iff]
    rcases ih (linked_step h hx) hrun with hm | harms
    · exact (arms_of_mem_step h hx hm).imp_right .inl
    · exact .inr (.inr harms)

/-- So was what the tasks find in the course of it. -/
theorem arms_of_mem_runBeats {steps : List Step} {answers : List Answer} (h : s.broker.Linked)
    (hrun : s.run steps = .ok (answers, s')) (hf : found ∈ s.runBeats steps)
    (hr : r ∈ found.broker.agenda.rules) :
    r ∈ s.broker.agenda.rules ∨ ∃ y ∈ s.trail steps, y.1.Arms y.2 r := by
  induction steps generalizing s answers with
  | nil => cases hf
  | cons x rest ih =>
    obtain ⟨a, mid, later, hx, hrun, -⟩ := run_cons_eq_ok_iff.mp hrun
    rw [runBeats_cons hx, List.mem_append] at hf
    simp only [trail_eq hx, List.exists_mem_cons_iff]
    rcases hf with hf | hf
    · exact (arms_of_mem_beat h hf hx hr).imp_right .inl
    · rcases ih (linked_step h hx) hrun hf with hm | harms
      · exact (arms_of_mem_step h hx hm).imp_right .inl
      · exact .inr (.inr harms)

theorem settle_succeeds (h : s.broker.Linked) (hs : s.settle = .ok s') :
    s.broker.Succeeds s'.broker := by
  rw [settle_replays h hs]
  exact s.broker.replay_succeeds fun d hd => taskDeeds_drop hd

namespace Arms

variable (h : s.broker.Linked) (harms : s.Arms x r)

include h harms

theorem ne_advance (ms : Nat) : x ≠ .advance ms := by
  rintro rfl
  obtain ⟨hn, a, acted, ha, hr⟩ := harms
  obtain ⟨end', hp, he⟩ := map_eq_ok_iff.mp ha
  cases he
  exact hn (advance_rules h hp hr)

omit h in
theorem setsWall : x.setsWall = false := by
  cases x with
  | setWall ms =>
    obtain ⟨hn, a, acted, ha, hr⟩ := harms
    cases ha
    exact absurd hr hn
  | _ => rfl

/-- The order of a rule tells in which step it was armed. -/
theorem order (hx : x.isDrop = false) (hs : s.step x = .ok (a, s')) :
    s.broker.agenda.nextOrder ≤ r.order ∧ r.order < s'.broker.agenda.nextOrder := by
  obtain ⟨acted, ha, ht⟩ := step_eq_ok_iff.mp hs
  obtain ⟨hn, a', acted', ha', hr⟩ := id harms
  obtain ⟨-, rfl⟩ := Prod.mk.inj (Except.ok.inj (ha.symm.trans ha'))
  have hacted : s.broker.Succeeds acted.broker := by
    rw [act_replays h (ne_advance h harms) ha]
    exact s.broker.replay_succeeds fun d hm =>
      Action.isDrop_of_isOrdinary (callerDeeds_ordinary hx hm)
  rcases hacted.rules r hr with hr | ⟨hlo, hhi⟩
  · exact absurd hr hn
  · exact ⟨hlo, Nat.lt_of_lt_of_le hhi (settle_succeeds (linked_act h ha) ht).nextOrder⟩

end Arms

/-- A rule gets its order in the step in which it is armed: the orders that were given before are
smaller, those that were not given by the end are larger. -/
theorem Arms.order_in_run {steps : List Step} {answers : List Answer} {y : Session × Step}
    (h : s.broker.Linked) (hd : ∀ x ∈ steps, x.isDrop = false)
    (hr : s.run steps = .ok (answers, s')) (hy : y ∈ s.trail steps) (harms : y.1.Arms y.2 r) :
    s.broker.agenda.nextOrder ≤ r.order ∧ r.order < s'.broker.agenda.nextOrder := by
  obtain ⟨ys, zs, ht⟩ := List.append_of_mem hy
  obtain ⟨before, after, earlier, a, mid, later, rfl, hb, hx, ha, -⟩ := split_of_trail hr ht
  simp only [List.forall_mem_append, List.forall_mem_cons] at hd
  have hl := linked_run h hb
  obtain ⟨hlo, hhi⟩ := harms.order hl hd.2.1 hx
  have hbefore := (run_succeeds h hd.1 hb).nextOrder
  have hafter := (run_succeeds (linked_step hl hx) hd.2.2 ha).nextOrder
  omega

/-! ## Between two beats -/

/-- What can happen to a session from one run of the tasks to the next. If it is `calm`, the wall
clock is not set. -/
inductive Between (calm : Bool) (s : Session) : Session → Prop
  | tick : Between calm s { s with moment := s.moment.after 1 }
  | acted {x : Step} {a : Answer} {s' : Session} (ht : ∀ ms, x ≠ .advance ms)
      (hd : x.isDriver = false) (hw : calm = true → x.setsWall = false)
      (ha : s.act x = .ok (a, s')) : Between calm s s'
  | still : Between calm s s

namespace Between

variable {calm : Bool}

theorem changes (hb : Between calm s found) (h : s.broker.Linked) :
    s.broker.Succeeds found.broker ∧ s.broker.Alert found.broker := by
  cases hb with
  | tick | still => exact ⟨.refl _, .of_fields (List.Subset.refl _) rfl⟩
  | acted ht hd hw ha =>
    have hdrop := Step.isDrop_of_isDriver hd
    rw [act_replays h ht ha]
    exact ⟨s.broker.replay_succeeds fun d hm =>
        Action.isDrop_of_isOrdinary (callerDeeds_ordinary hdrop hm),
      s.broker.replay_alert fun d hm => callerDeeds_ordinary hdrop hm⟩

theorem linked (hb : Between calm s found) (h : s.broker.Linked) : found.broker.Linked := by
  cases hb with
  | tick | still => exact h
  | acted ht hd hw ha => exact linked_act h ha

theorem maxTick (hb : Between calm s found) (h : s.broker.Linked) :
    found.broker.maxTick = s.broker.maxTick := by
  cases hb with
  | tick | still => rfl
  | acted ht hd hw ha => rw [act_replays h ht ha, Broker.replay_maxTick]

theorem driver (hb : Between calm s found) : found.driver = s.driver := by
  cases hb with
  | tick | still => rfl
  | acted ht hd hw ha => exact (act_acted ht (Step.isDrop_of_isDriver hd) ha).driver hd

theorem mono (hb : Between calm s found) :
    s.moment.mono ≤ found.moment.mono ∧ found.moment.mono ≤ s.moment.mono + 1 := by
  cases hb with
  | tick => exact ⟨Nat.le_succ _, Nat.le_refl _⟩
  | still => exact ⟨Nat.le_refl _, Nat.le_succ _⟩
  | acted ht hd hw ha =>
    rw [(act_acted ht (Step.isDrop_of_isDriver hd) ha).mono]
    exact ⟨Nat.le_refl _, Nat.le_succ _⟩

/-- As long as the wall clock is not set, either one millisecond passes with nothing else, or none.
-/
theorem moment (hb : Between true s found) :
    found = { s with moment := s.moment.after 1 } ∨ found.moment = s.moment := by
  cases hb with
  | tick => exact .inl rfl
  | still => exact .inr rfl
  | acted ht hd hw ha =>
    exact .inr ((act_acted ht (Step.isDrop_of_isDriver hd) ha).moment (hw rfl))

end Between

/-! ## A driver that is ready and a driver that sleeps -/

/-- What the tasks find. -/
structure Ready (tick deadline : Nat) (s : Session) : Prop where
  linked : s.broker.Linked
  ordered : s.broker.agenda.Ordered
  maxTick : s.broker.maxTick = tick
  positive : 0 < tick
  driver : s.driver = some deadline
  near : deadline ≤ s.moment.mono + tick

/-- What the tasks leave. -/
structure Asleep (tick deadline : Nat) (s : Session) : Prop extends Ready tick deadline s where
  ahead : s.moment.mono < deadline
  noted : s.broker.wakeup = false

variable {tick deadline : Nat} {calm : Bool}

theorem Asleep.ready (h : Asleep tick deadline s) (hb : Between calm s found) :
    Ready tick deadline found where
  linked := hb.linked h.linked
  ordered := (hb.changes h.linked).1.ordered h.ordered
  maxTick := (hb.maxTick h.linked).trans h.maxTick
  positive := h.positive
  driver := hb.driver.trans h.driver
  near := by
    have := h.near
    have := hb.mono.1
    omega

/-- The driver has fired what was due and planned anew, or it was not yet time and it did nothing.
-/
theorem Ready.settle_cases (h : Ready tick deadline found) (hs : found.settle = .ok left) :
    (∃ plan, Asleep tick plan left ∧ Planned left.moment tick left.broker.agenda plan) ∨
      (found.broker.wakeup = false ∧ left.broker.agenda = found.broker.agenda ∧
        Asleep tick deadline left) := by
  have hset := settle_settled h.linked hs
  have hl := linked_settle h.linked hs
  have ho := (settle_succeeds h.linked hs).ordered h.ordered
  have ht : left.broker.maxTick = tick := by
    rw [settle_replays h.linked hs, Broker.replay_maxTick, h.maxTick]
  by_cases hw : (found.broker.wakeup || deadline ≤ found.moment.mono) = true
  · left
    have hrun : found.runDriver = { found with
        driver := some (driverRun found.broker found.moment).1
        broker := (driverRun found.broker found.moment).2 } := by
      simp only [runDriver, h.driver]
      rw [if_pos hw]
    have hp := driverRun_planned h.ordered (h.maxTick ▸ h.positive) found.moment
    rw [h.maxTick] at hp
    have hd := hset.driver
    have ha := hset.agenda
    have hn := hset.wakeup
    rw [hrun] at hd ha hn
    refine ⟨(driverRun found.broker found.moment).1, ⟨⟨hl, ho, ht, h.positive, hd, ?_⟩, ?_, ?_⟩, ?_⟩
    · rw [hset.moment]
      exact hp.near
    · rw [hset.moment]
      exact hp.ahead
    · rw [hn]
      exact (driverRun_eq h.ordered found.moment).2.2
    · rw [hset.moment, ha]
      exact hp
  · right
    have hrun : found.runDriver = found := by
      simp only [runDriver, h.driver]
      rw [if_neg hw]
    have hd := hset.driver
    have ha := hset.agenda
    have hn := hset.wakeup
    rw [hrun] at hd ha hn
    simp only [Bool.or_eq_true, decide_eq_true_eq, not_or, Nat.not_le, Bool.not_eq_true] at hw
    refine ⟨hw.1, ha, ⟨⟨hl, ho, ht, h.positive, hd.trans h.driver, ?_⟩, ?_, hn.trans hw.1⟩⟩
    · rw [hset.moment]
      exact h.near
    · rw [hset.moment]
      exact hw.2

theorem Ready.settle (h : Ready tick deadline found) (hs : found.settle = .ok left) :
    ∃ plan, Asleep tick plan left := by
  rcases h.settle_cases hs with ⟨plan, h, -⟩ | ⟨-, -, h⟩
  · exact ⟨plan, h⟩
  · exact ⟨deadline, h⟩

/-! ## Chains of beats -/

/-- The tasks run again and again; the list has the sessions that they find. -/
inductive Beating (calm : Bool) : Session → List Session → Session → Prop
  | rest (s : Session) : Beating calm s [] s
  | beat {s found left s' : Session} {beats : List Session} (hb : Between calm s found)
      (hs : found.settle = .ok left) (hrest : Beating calm left beats s') :
      Beating calm s (found :: beats) s'

theorem Beating.append {beats beats' : List Session} {mid : Session}
    (h : Beating calm s beats mid) (h' : Beating calm mid beats' s') :
    Beating calm s (beats ++ beats') s' := by
  induction h with
  | rest => exact h'
  | beat hb hs _ ih => exact .beat hb hs (ih h')

theorem Beating.split {beats beats' : List Session} (h : Beating calm s (beats ++ beats') s') :
    ∃ mid, Beating calm s beats mid ∧ Beating calm mid beats' s' := by
  induction beats generalizing s with
  | nil => exact ⟨s, .rest s, h⟩
  | cons found rest ih =>
    cases h with
    | beat hb hs hrest =>
      obtain ⟨mid, hmid, hend⟩ := ih hrest
      exact ⟨mid, .beat hb hs hmid, hend⟩

theorem Beating.split_of_mem {beats : List Session} (h : Beating calm s beats s')
    (hf : found ∈ beats) : ∃ mid left earlier later, Beating calm s earlier mid ∧
      Between calm mid found ∧ found.settle = .ok left ∧ Beating calm left later s' := by
  obtain ⟨earlier, later, rfl⟩ := List.append_of_mem hf
  obtain ⟨mid, hmid, hend⟩ := h.split
  cases hend with
  | beat hb hs hrest => exact ⟨mid, _, earlier, later, hmid, hb, hs, hrest⟩

theorem beating_pass {n : Nat} (hp : pass n s = .ok s') : Beating calm s (passBeats n s) s' := by
  induction n generalizing s with
  | zero =>
    cases hp
    exact .rest _
  | succ n ih =>
    obtain ⟨mid, hs, hrest⟩ := pass_succ_eq_ok_iff.mp hp
    simp only [passBeats, hs]
    exact .beat .tick hs (ih hrest)

/-- If something waits for time to pass, a step is a chain of beats. -/
theorem beating_step (hw : s.isWaiting = true) (hd : x.isDriver = false)
    (hc : calm = true → x.setsWall = false) (hs : s.step x = .ok (a, s')) :
    Beating calm s (s.beats x) s' := by
  obtain ⟨acted, ha, ht⟩ := step_eq_ok_iff.mp hs
  simp only [beats, ha]
  by_cases hx : ∃ ms, x = .advance ms
  · obtain ⟨ms, rfl⟩ := hx
    obtain ⟨end', hp, he⟩ := map_eq_ok_iff.mp ha
    cases he
    rw [advance, if_pos hw] at hp
    simp only [innerBeats, hw, if_true]
    exact (beating_pass hp).append (.beat .still ht (.rest s'))
  · have hx' : ∀ ms, x ≠ .advance ms := fun ms he => hx ⟨ms, he⟩
    have hi : s.innerBeats x = [] := by
      cases x with
      | advance ms => exact absurd rfl (hx' ms)
      | _ => rfl
    rw [hi]
    exact .beat (.acted hx' hd hc ha) ht (.rest s')

theorem Asleep.beating {beats : List Session} (h : Asleep tick deadline s)
    (hb : Beating calm s beats s') : ∃ plan, Asleep tick plan s' := by
  induction hb generalizing deadline with
  | rest => exact ⟨deadline, h⟩
  | beat hb hs _ ih =>
    obtain ⟨plan, h⟩ := (h.ready hb).settle hs
    exact ih h

theorem Asleep.isWaiting (h : Asleep tick deadline s) : s.isWaiting = true := by
  simp [Session.isWaiting, h.driver]

theorem Asleep.beating_run {steps : List Step} {answers : List Answer}
    (h : Asleep tick deadline s) (hd : ∀ x ∈ steps, x.isDriver = false)
    (hc : calm = true → ∀ x ∈ steps, x.setsWall = false)
    (hr : s.run steps = .ok (answers, s')) : Beating calm s (s.runBeats steps) s' := by
  induction steps generalizing s deadline answers with
  | nil =>
    cases hr
    exact .rest _
  | cons x rest ih =>
    rw [List.forall_mem_cons] at hd
    obtain ⟨a, mid, later, hx, hr, -⟩ := run_cons_eq_ok_iff.mp hr
    -- time passes millisecond by millisecond because the driver waits for it
    have hfirst := beating_step h.isWaiting hd.1 (fun hc' => hc hc' x List.mem_cons_self) hx
    obtain ⟨plan, hmid⟩ := h.beating hfirst
    have hlater := ih hmid hd.2 (fun hc' y hy => hc hc' y (List.mem_cons_of_mem _ hy)) hr
    rw [runBeats_cons hx]
    exact hfirst.append hlater

theorem Asleep.succeeds {beats : List Session} (h : Asleep tick deadline s)
    (hb : Beating calm s beats s') : s.broker.Succeeds s'.broker := by
  induction hb generalizing deadline with
  | rest => exact .refl _
  | beat hb hs _ ih =>
    have hready := h.ready hb
    obtain ⟨plan, hleft⟩ := hready.settle hs
    exact ((hb.changes h.linked).1.trans (settle_succeeds hready.linked hs)).trans (ih hleft)

/-- What the tasks find along a chain of beats stands between its two ends. -/
theorem Asleep.of_mem_beats {beats : List Session} (h : Asleep tick deadline s)
    (hb : Beating calm s beats s') (hf : found ∈ beats) :
    (∃ plan left, Ready tick plan found ∧ found.settle = .ok left) ∧
      s.broker.Succeeds found.broker ∧ found.broker.Succeeds s'.broker := by
  obtain ⟨mid, left, earlier, later, hmid, hbetween, hs, hend⟩ := hb.split_of_mem hf
  obtain ⟨plan, hasleep⟩ := h.beating hmid
  have hready := hasleep.ready hbetween
  obtain ⟨plan', hleft⟩ := hready.settle hs
  exact ⟨⟨plan, left, hready, hs⟩,
    (h.succeeds hmid).trans (hbetween.changes hasleep.linked).1,
    (settle_succeeds hready.linked hs).trans (hleft.succeeds hend)⟩

end EventBroker.Session
