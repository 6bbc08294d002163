import EventBroker.Proofs.Punctuality

/-! # The driver is timely

A driver that was started and not stopped sleeps for at most one tick at a time, never fires early,
leaves no rule due for longer than a tick, and ends within a tick of the broker. As long as the wall
clock is not set it leaves nothing due at all. A rule is then fired at its very time or, if that had
passed, when it was submitted or the driver was started, whichever came last (`FiredOnTime`).
-/
set_option autoImplicit false

namespace EventBroker.Session

variable {s s' found left : Session} {a : Answer} {r : ArmedRule} {f : Firing}
variable {tick deadline : Nat}

/-! ## The start and the end of a driver -/

/-- The session that the tasks find when the driver has just been started. -/
def withDriver (s : Session) : Session := { s with driver := some s.moment.mono }

theorem startDriver_settle (hs : s.step .startDriver = .ok (a, s')) :
    s.withDriver.settle = .ok s' := by
  obtain ⟨acted, ha, ht⟩ := step_eq_ok_iff.mp hs
  cases ha
  exact ht

/-- A driver that wakes up becomes punctual. -/
theorem Ready.punctual (h : Ready tick deadline found) (hd : deadline ≤ found.moment.mono)
    (hs : found.settle = .ok left) : ∃ plan, Punctual tick plan left := by
  rcases h.settle_cases hs with ⟨plan, hleft, hplan⟩ | ⟨-, -, hleft⟩
  · exact ⟨plan, .of_planned hleft hplan⟩
  · have := hleft.ahead
    rw [settle_moment h.linked hs] at this
    omega

/-- What was armed when the driver was started fires at its time, or at once if that has passed. -/
theorem Ready.fires_waiting {start : Session} {beats : List Session}
    (h : Ready tick deadline found) (hd : deadline ≤ found.moment.mono)
    (hs : found.settle = .ok start) (hb : Beating true start beats s')
    {t : Session} (ht : t ∈ found :: beats) (hf : f ∈ t.driverFirings)
    (hr : f.rule.order < found.broker.agenda.nextOrder) :
    f.event.firedAt = max f.rule.fireAt start.moment.now := by
  obtain ⟨hmem, hdue, hat⟩ := due_of_driverDeeds hf
  rcases List.mem_cons.mp ht with rfl | ht
  · rw [hat, settle_moment h.linked hs]
    exact (Nat.max_eq_right hdue).symm
  · obtain ⟨plan, hstart⟩ := h.punctual hd hs
    have hlt : f.rule.order < start.broker.agenda.nextOrder :=
      Nat.lt_of_lt_of_le hr (settle_succeeds h.linked hs).nextOrder
    have hold := (hstart.toAsleep.of_mem_beats hb ht).2.1.mem_of_order_lt hmem hlt
    rw [hstart.fires_on_time hb ht hf hold]
    exact (Nat.max_eq_left (Nat.le_of_lt (hstart.later f.rule hold))).symm

/-- Sockets end without a crash once the gateway has been dropped. -/
theorem runSockets_dropped (h : s.broker.gateway.dropped = true) :
    ∃ sockets broker, s.runSockets = .ok { s with sockets, broker } := by
  have hforward : ∀ (socket : Socket) (b : Broker), b.gateway.dropped = true →
      ∃ socket' b', forward socket b = .ok (socket', b') ∧ b'.gateway.dropped = true := by
    intro socket b hb
    unfold forward
    cases hsub : socket.subscription with
    | none => exact ⟨socket, b, rfl, hb⟩
    | some sub =>
      have hr : (b.receiveUpTo sub none).2.gateway.dropped = true := by
        rw [receiveUpTo_dropped, hb]
      simp only [hr, if_true, endSocket, Broker.unsubscribe, Gateway.unsubscribe,
        Gateway.discard, Except.map]
      exact ⟨_, _, rfl, rfl⟩
  have hfold : ∀ (sockets done : List Socket) (b : Broker), b.gateway.dropped = true →
      ∃ out, sockets.foldlM (fun p socket => forward socket p.2 >>= fun q =>
        pure (p.1 ++ [q.1], q.2)) (done, b) = Except.ok (ε := Crash) out := by
    intro sockets
    induction sockets with
    | nil => exact fun done b _ => ⟨(done, b), rfl⟩
    | cons socket rest ih =>
      intro done b hb
      obtain ⟨socket', b', hone, hb'⟩ := hforward socket b hb
      obtain ⟨out, hrest⟩ := ih (done ++ [socket']) b' hb'
      refine ⟨out, ?_⟩
      rw [List.foldlM_cons, bind_eq_ok_iff]
      exact ⟨(done ++ [socket'], b'), bind_eq_ok_iff.mpr ⟨(socket', b'), hone, rfl⟩, hrest⟩
  obtain ⟨⟨sockets, broker⟩, hout⟩ := hfold s.sockets [] s.broker h
  refine ⟨sockets, broker, ?_⟩
  exact bind_eq_ok_iff.mpr ⟨(sockets, broker), hout, rfl⟩

/-- Once the broker is dropped, the driver ends when it would have woken up. -/
theorem Asleep.dropBroker (h : Asleep tick deadline s) (limit : Nat) :
    ∃ inTime n ended, s.step (.dropBroker limit) = .ok (.driverEnded inTime n, ended) ∧
      n ≤ tick ∧ (tick ≤ limit → inTime = true) ∧ ended.driver = none ∧
      ended.moment = s.moment.after n := by
  have hnear := h.near
  let acted : Session := { s with
    broker := (s.broker.channels.foldl Broker.closeChannel s.broker).drop
    reapers := []
    driver := none
    moment := s.moment.after (min (deadline - s.moment.mono) limit) }
  have hact : s.act (.dropBroker limit) = .ok (.driverEnded (deadline - s.moment.mono ≤ limit)
      (min (deadline - s.moment.mono) limit), acted) := by
    simp only [act, Session.dropBroker, driverEnd, h.driver]
    rfl
  obtain ⟨sockets, broker, hsockets⟩ := runSockets_dropped (s := acted) rfl
  have hsettle : acted.settle = .ok { acted with sockets, broker } := hsockets
  refine ⟨_, _, _, step_eq_ok_iff.mpr ⟨acted, hact, hsettle⟩, ?_, fun hl => ?_, rfl, rfl⟩
  · omega
  · simp only [decide_eq_true_eq]
    omega

/-! ## From the start to the end -/

/-- When a rule is fired, seen from its submission: at its time or, if that has passed, at the
submission or at the start of the driver, whichever comes last. That is the latest of the three
times unless the wall clock is set between an earlier submission and the start. -/
structure FiredOnTime (before after : List (Session × Step)) (start : Session) (f : Firing) :
    Prop where
  submitted : ∃ y ∈ before ++ after, y.1.Arms y.2 f.rule
  earlier : ∀ ys y zs, before = ys ++ y :: zs → y.1.Arms y.2 f.rule →
    f.event.firedAt = max f.rule.fireAt start.moment.now ∧
      ((∀ z ∈ zs, z.2.setsWall = false) →
        f.event.firedAt = max (max f.rule.fireAt y.1.moment.now) start.moment.now)
  later : ∀ y ∈ after, y.1.Arms y.2 f.rule →
    f.event.firedAt = max f.rule.fireAt y.1.moment.now ∧
      f.event.firedAt = max (max f.rule.fireAt y.1.moment.now) start.moment.now

variable {supply : IdSupply} {settings : BrokerSettings} {b : Broker} {m : Moment}
variable {before after : List Step} {earlier later : List Answer} {prior start final : Session}

theorem ready_withDriver (hb : Broker.new settings = .ok b)
    (hdrop : ∀ x ∈ before, x.isDrop = false)
    (hbefore : (Session.new supply b m).run before = .ok (earlier, prior)) :
    Ready (max settings.maxTick 1) prior.moment.mono prior.withDriver := by
  have hnew : (Session.new supply b m).broker.Linked := Broker.Linked.new hb
  have hlinked : prior.broker.Linked := linked_run hnew hbefore
  have hordered : prior.broker.agenda.Ordered := by
    refine (run_succeeds hnew hdrop hbefore).ordered ?_
    rw [Session.new, Broker.new_eq hb]
    exact .empty
  have htick : prior.broker.maxTick = max settings.maxTick 1 := by
    rw [run_replays hnew hbefore, Broker.replay_maxTick, Session.new, Broker.new_eq hb]
  exact ⟨hlinked, hordered, htick, by omega, rfl, Nat.le_add_right _ _⟩

theorem fired_on_time (hb : Broker.new settings = .ok b) (hdrop : ∀ x ∈ before, x.isDrop = false)
    (hdriver : ∀ x ∈ after, x.isDriver = false) (hwall : ∀ x ∈ after, x.setsWall = false)
    (hbefore : (Session.new supply b m).run before = .ok (earlier, prior))
    (hstart : prior.step .startDriver = .ok (a, start))
    (hafter : start.run after = .ok (later, final))
    (hfound : found ∈ prior.withDriver :: start.runBeats after) (hf : f ∈ found.driverFirings) :
    FiredOnTime ((Session.new supply b m).trail before) (start.trail after) start f := by
  have hnew : (Session.new supply b m).broker.Linked := Broker.Linked.new hb
  have hready := ready_withDriver hb hdrop hbefore
  have hsettle := startDriver_settle hstart
  have hlinked : prior.broker.Linked := hready.linked
  have hmoment : start.moment = prior.moment := (settle_moment hready.linked hsettle : _)
  obtain ⟨plan, hpunctual⟩ := hready.punctual (Nat.le_refl _) hsettle
  have hbeating : Beating true start (start.runBeats after) final :=
    hpunctual.toAsleep.beating_run hdriver (fun _ => hwall) hafter
  have hmem := (due_of_driverDeeds hf).1
  have hdrop' : ∀ x ∈ after, x.isDrop = false := fun x hx => Step.isDrop_of_isDriver (hdriver x hx)
  have hwaiting : f.rule ∈ prior.broker.agenda.rules →
      ∃ y ∈ (Session.new supply b m).trail before, y.1.Arms y.2 f.rule := by
    intro hr
    refine (arms_of_mem_run hnew hbefore hr).resolve_left fun hr => ?_
    rw [Session.new, Broker.new_eq hb] at hr
    cases hr
  refine ⟨?_, fun ys y zs ht harms => ?_, fun y hy harms => ?_⟩
  · simp only [List.mem_append]
    rcases List.mem_cons.mp hfound with rfl | hfound
    · obtain ⟨y, hy, harms⟩ := hwaiting hmem
      exact ⟨y, .inl hy, harms⟩
    rcases arms_of_mem_runBeats hpunctual.linked hafter hfound hmem with hr | ⟨y, hy, harms⟩
    · obtain ⟨y, hy, harms⟩ := hwaiting (settle_rules hready.linked hsettle hr)
      exact ⟨y, .inl hy, harms⟩
    · exact ⟨y, .inr hy, harms⟩
  · have hy : y ∈ (Session.new supply b m).trail before := by
      rw [ht]
      exact List.mem_append_right _ List.mem_cons_self
    have hlt := (harms.order_in_run hnew hdrop hbefore hy).2
    have he := hready.fires_waiting (Nat.le_refl _) hsettle hbeating hfound hf hlt
    refine ⟨he, fun hcalm => ?_⟩
    obtain ⟨bs, as, _, _, mid, _, rfl, hrun, hx, hrest, rfl⟩ := split_of_trail hbefore ht
    simp only [List.forall_mem_append, List.forall_mem_cons] at hdrop
    have hl := linked_run hnew hrun
    have hcalm' : ∀ x ∈ as, x.setsWall = false := by
      rw [← map_trail hrest, List.forall_mem_map]
      exact hcalm
    have hstep := step_wall_le hl hdrop.2.1 harms.setsWall hx
    have hrest' := run_wall_le (linked_step hl hx) hdrop.2.2 hcalm' hrest
    have hnow : y.1.moment.now ≤ start.moment.now := by
      rw [hmoment]
      exact Int.toNat_le_toNat (Int.le_trans hstep hrest')
    omega
  · rcases List.mem_cons.mp hfound with rfl | hfound
    · have hlo := (harms.order_in_run hpunctual.linked hdrop' hafter hy).1
      have hhi := hready.ordered.below f.rule hmem
      have hle := (settle_succeeds hready.linked hsettle).nextOrder
      omega
    have he := hpunctual.fires_submitted hdriver hwall hafter hfound hf hy harms
    refine ⟨he, ?_⟩
    obtain ⟨ys, zs, ht⟩ := List.append_of_mem hy
    obtain ⟨bs, as, _, _, _, _, rfl, hrun, -⟩ := split_of_trail hafter ht
    rw [List.forall_mem_append] at hdrop' hwall
    have hnow : start.moment.now ≤ y.1.moment.now :=
      Int.toNat_le_toNat (run_wall_le hpunctual.linked hdrop'.1 hwall.1 hrun)
    omega

/-- The driver is timely, whatever else is done. -/
theorem driver_timely (hb : Broker.new settings = .ok b)
    (hdrop : ∀ x ∈ before, x.isDrop = false) (hdriver : ∀ x ∈ after, x.isDriver = false)
    (hbefore : (Session.new supply b m).run before = .ok (earlier, prior))
    (hstart : prior.step .startDriver = .ok (a, start))
    (hafter : start.run after = .ok (later, final)) :
    -- it falls asleep, for at most one tick
    (∀ found ∈ prior.runBeats (.startDriver :: after), FallsAsleep (max settings.maxTick 1) found) ∧
    -- nothing is fired early
    (∀ found ∈ prior.runBeats (.startDriver :: after), ∀ f ∈ found.driverFirings,
      f.rule.fireAt ≤ f.event.firedAt) ∧
    -- while the wall clock is not set, nothing is left due, and what is fired is fired on time
    ((∀ x ∈ after, x.setsWall = false) → ∀ found ∈ prior.runBeats (.startDriver :: after),
      (∃ left, found.settle = .ok left ∧
        ∀ r ∈ left.broker.agenda.rules, left.moment.now < r.fireAt) ∧
      ∀ f ∈ found.driverFirings,
        FiredOnTime ((Session.new supply b m).trail before) (start.trail after) start f) ∧
    -- however the wall clock is set, nothing stays due for longer than a tick
    (∀ (r : ArmedRule) (first last : Session) (between : List Session),
      first :: between ++ [last] <:+: prior.runBeats (.startDriver :: after) →
      (∀ t ∈ first :: between ++ [last],
        r ∈ t.broker.agenda.rules ∧ r.fireAt ≤ t.moment.now) →
      last.moment.mono ≤ first.moment.mono + max settings.maxTick 1) ∧
    -- once the broker is dropped, the driver ends within a tick
    ∀ limit, ∃ inTime n ended,
      final.step (.dropBroker limit) = .ok (.driverEnded inTime n, ended) ∧
      n ≤ max settings.maxTick 1 ∧ (max settings.maxTick 1 ≤ limit → inTime = true) ∧
      ended.driver = none ∧ ended.moment = final.moment.after n := by
  have hready := ready_withDriver hb hdrop hbefore
  have hsettle := startDriver_settle hstart
  obtain ⟨plan, hpunctual⟩ := hready.punctual (Nat.le_refl _) hsettle
  have hbeating : Beating false start (start.runBeats after) final :=
    hpunctual.toAsleep.beating_run hdriver (fun h => Bool.noConfusion h) hafter
  have hbeats : prior.runBeats (.startDriver :: after) =
      prior.withDriver :: start.runBeats after := runBeats_cons hstart after
  rw [hbeats]
  refine ⟨?_, fun found _ f hf => ?_, fun hwall => ?_, fun r first last between hseg hdue => ?_, ?_⟩
  · rw [List.forall_mem_cons]
    refine ⟨hready.fallsAsleep hsettle, fun found hfound => ?_⟩
    obtain ⟨⟨_, _, hfound, hs⟩, -⟩ := hpunctual.toAsleep.of_mem_beats hbeating hfound
    exact hfound.fallsAsleep hs
  · obtain ⟨-, hdue, hat⟩ := due_of_driverDeeds hf
    exact hat ▸ hdue
  · have hcalm : Beating true start (start.runBeats after) final :=
      hpunctual.toAsleep.beating_run hdriver (fun _ => hwall) hafter
    intro found hfound
    refine ⟨?_, fun f hf => fired_on_time hb hdrop hdriver hwall hbefore hstart hafter hfound hf⟩
    rcases List.mem_cons.mp hfound with rfl | hfound
    · exact ⟨start, hsettle, hpunctual.later⟩
    · obtain ⟨mid, left, _, _, hmid, hbetween, hs, -⟩ := hcalm.split_of_mem hfound
      obtain ⟨_, hmid⟩ := hpunctual.beating hmid
      obtain ⟨_, hleft⟩ := hmid.beat hbetween hs
      exact ⟨left, hs, hleft.later⟩
  · exact hready.due_in_infix hsettle hbeating hseg hdue
  · intro limit
    obtain ⟨_, hfinal⟩ := hpunctual.toAsleep.beating hbeating
    exact hfinal.dropBroker limit

/-- A rule that comes due while the driver sleeps. -/
theorem driver_timely_once :
    ∃ b earlier prior a start later final, Broker.new {} = .ok b ∧
      (Session.new .counting b ⟨-3, 0⟩).run [.createQueue "jobs",
        .submit ⟨[65], none, [⟨"jobs", 2, none⟩]⟩] = .ok (earlier, prior) ∧
      prior.step .startDriver = .ok (a, start) ∧
      start.run [.advance 6] = .ok (later, final) ∧
      ∃ found ∈ prior.runBeats [.startDriver, .advance 6], ∃ f ∈ found.driverFirings,
        f.event.firedAt = 2 ∧ FallsAsleep 250 found ∧
          FiredOnTime ((Session.new .counting b ⟨-3, 0⟩).trail [.createQueue "jobs",
            .submit ⟨[65], none, [⟨"jobs", 2, none⟩]⟩]) (start.trail [.advance 6]) start f := by
  obtain ⟨b, hb⟩ : ∃ b, Broker.new {} = .ok b := ⟨_, rfl⟩
  obtain ⟨earlier, prior, hbefore, hp⟩ := of_endsWith (r := (Session.new .counting b ⟨-3, 0⟩).run
    [.createQueue "jobs", .submit ⟨[65], none, [⟨"jobs", 2, none⟩]⟩])
    (p := fun _ s => endsWith (s.run [.startDriver, .advance 6]) (fun _ _ => true) &&
      (s.runBeats [.startDriver, .advance 6]).any fun found =>
        found.driverFirings.any fun f => f.event.firedAt == 2) (by cases hb; decide +kernel)
  rw [Bool.and_eq_true, List.any_eq_true] at hp
  obtain ⟨hrun, found, hfound, hp⟩ := hp
  obtain ⟨f, hf, hat⟩ := List.any_eq_true.mp hp
  obtain ⟨answers, final, hrun, -⟩ := of_endsWith hrun
  obtain ⟨a, start, later, hstart, hafter, -⟩ := run_cons_eq_ok_iff.mp hrun
  obtain ⟨hasleep, -, hpunctual, -⟩ :=
    driver_timely hb (by decide) (by decide) hbefore hstart hafter
  exact ⟨b, earlier, prior, a, start, later, final, hb, hbefore, hstart, hafter, found, hfound,
    f, hf, by simpa using hat, hasleep found hfound, (hpunctual (by decide) found hfound).2 f hf⟩

/-- What was submitted before the wall clock was set back and is due when the driver is started is
fired at the start, which then reads earlier than the submission. -/
theorem driver_started_after_setting_back :
    ∃ b earlier prior a start, Broker.new {} = .ok b ∧
      (Session.new .counting b ⟨1000, 0⟩).run [.createQueue "Q", .createChannel ["Q"] ⟨1000, 10⟩,
        .submit ⟨[120], none, [⟨"Q", 500, none⟩]⟩, .setWall 600] = .ok (earlier, prior) ∧
      prior.step .startDriver = .ok (a, start) ∧
      ∃ found ∈ prior.runBeats [.startDriver], ∃ f ∈ found.driverFirings,
        ∃ y ∈ (Session.new .counting b ⟨1000, 0⟩).trail [.createQueue "Q",
          .createChannel ["Q"] ⟨1000, 10⟩, .submit ⟨[120], none, [⟨"Q", 500, none⟩]⟩,
          .setWall 600], y.1.Arms y.2 f.rule ∧ f.event.firedAt = 600 ∧
            max (max f.rule.fireAt y.1.moment.now) start.moment.now = 1000 := by
  obtain ⟨b, hb⟩ : ∃ b, Broker.new {} = .ok b := ⟨_, rfl⟩
  obtain ⟨earlier, prior, hbefore, hp⟩ := of_endsWith (r := (Session.new .counting b ⟨1000, 0⟩).run
    [.createQueue "Q", .createChannel ["Q"] ⟨1000, 10⟩,
      .submit ⟨[120], none, [⟨"Q", 500, none⟩]⟩, .setWall 600])
    (p := fun _ s => endsWith (s.run [.startDriver]) (fun _ s => s.moment.now == 600) &&
      (s.runBeats [.startDriver]).any fun found =>
        found.driverFirings.any fun f => f.rule.fireAt == 500 && f.event.firedAt == 600)
    (by cases hb; decide +kernel)
  rw [Bool.and_eq_true, List.any_eq_true] at hp
  obtain ⟨hrun, found, hfound, hp⟩ := hp
  obtain ⟨f, hf, hat⟩ := List.any_eq_true.mp hp
  simp only [Bool.and_eq_true, beq_iff_eq] at hat
  obtain ⟨answers, final, hrun, hnow⟩ := of_endsWith hrun
  obtain ⟨a, start, later, hstart, hafter, -⟩ := run_cons_eq_ok_iff.mp hrun
  cases hafter
  have hclock : ∀ y ∈ (Session.new .counting b ⟨1000, 0⟩).trail [.createQueue "Q",
      .createChannel ["Q"] ⟨1000, 10⟩, .submit ⟨[120], none, [⟨"Q", 500, none⟩]⟩, .setWall 600],
      y.1.moment.now = 1000 := by
    cases hb
    decide +kernel
  obtain ⟨y, hy, harms⟩ := (fired_on_time hb (by decide) (by decide) (by decide) hbefore hstart rfl
    (runBeats_cons hstart [] ▸ hfound) hf).submitted
  have hy := (List.mem_append.mp hy).resolve_right List.not_mem_nil
  refine ⟨b, earlier, prior, a, final, hb, hbefore, hstart, found, hfound, f, hf, y, hy, harms,
    hat.2, ?_⟩
  rw [hat.1, hclock y hy, beq_iff_eq.mp hnow]
  rfl

end EventBroker.Session
