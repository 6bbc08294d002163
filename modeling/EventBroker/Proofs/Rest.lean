import EventBroker.Proofs.Beats
import EventBroker.Proofs.Turns

/-! # Sessions at rest

When the tasks have run, none of them has anything left to do before time passes or somebody takes a
step: the session is `AtRest`. A step that takes no time leaves it `Paced`, with every task due at
once or later, and from there the tasks lead back to rest, without a crash (`Paced.settle`).
-/
set_option autoImplicit false

namespace EventBroker

/-- Forwarding twice is forwarding once. -/
theorem View.forwarded_forwarded (dropped : Bool) (v : View) :
    (v.forwarded dropped).forwarded dropped = v.forwarded dropped := by
  obtain ⟨heard, sent⟩ := v
  cases heard with
  | none => rfl
  | some line =>
    cases sent with
    | none => rfl
    | some q => cases dropped <;> rfl

/-- A reaper after its round, if that is due. -/
def Reaper.turned (m : Moment) (r : Reaper) : Reaper :=
  { r with next := r.next.map fun next => if next ≤ m.mono then next + r.interval else next }

theorem Reaper.turned_ahead {m : Moment} {r : Reaper}
    (h : ∀ next ∈ r.next, m.mono ≤ next ∧ 0 < r.interval) :
    ∀ next ∈ (r.turned m).next, m.mono < next ∧ 0 < (r.turned m).interval := by
  intro next hn
  obtain ⟨before, hb, rfl⟩ := Option.mem_map.mp hn
  obtain ⟨hle, hpos⟩ := h before hb
  refine ⟨?_, hpos⟩
  split <;> omega

namespace Session

/-- No task is overdue, and no reaper stands still. -/
structure Paced (s : Session) : Prop where
  linked : s.broker.Linked
  streaming : s.Streaming
  ordered : s.broker.agenda.Ordered
  positive : 0 < s.broker.maxTick
  near : ∀ deadline ∈ s.driver, deadline ≤ s.moment.mono + s.broker.maxTick
  reapers : ∀ r ∈ s.reapers, ∀ next ∈ r.next, s.moment.mono ≤ next ∧ 0 < r.interval

/-- No task has anything to do. -/
structure AtRest (s : Session) : Prop extends Paced s where
  asleep : ∀ deadline ∈ s.driver, s.moment.mono < deadline ∧ s.broker.wakeup = false
  ahead : ∀ r ∈ s.reapers, ∀ next ∈ r.next, s.moment.mono < next
  flushed : ∀ l, (s.view l).forwarded s.broker.gateway.dropped = s.view l

variable {s t : Session} {x : Step} {a : Answer}

/-! ## Running the tasks -/

theorem reaperRun_fst (m : Moment) (r : Reaper) (b : Broker) :
    (reaperRun m r b).1 = r.turned m := by
  obtain ⟨timeout, interval, next⟩ := r
  cases next with
  | none => rfl
  | some next =>
    unfold reaperRun Reaper.turned
    by_cases hdue : next ≤ m.mono
    · simp [hdue]
    · simp [hdue]

theorem linked_reaperRun {b : Broker} (h : b.Linked) (m : Moment) (r : Reaper) :
    (reaperRun m r b).2.Linked := by
  unfold reaperRun
  split
  · split
    · rw [← h.distinct.replay_reapDeeds]
      exact h.replay _
    · exact h
  · exact h

/-- The reapers take their turns on one broker. -/
theorem runReapers_eq (s : Session) : s.runReapers = { s with
    reapers := s.reapers.map (·.turned s.moment)
    broker := s.reapers.foldl (fun b r => (reaperRun s.moment r b).2) s.broker } := by
  have hfold : ∀ (reapers done : List Reaper) (b : Broker), reapers.foldl (fun p r =>
      (p.1 ++ [(reaperRun s.moment r p.2).1], (reaperRun s.moment r p.2).2)) (done, b) =
        (done ++ reapers.map (·.turned s.moment),
          reapers.foldl (fun b r => (reaperRun s.moment r b).2) b) := by
    intro reapers
    induction reapers with
    | nil =>
      intro done b
      rw [List.map_nil, List.append_nil]
      rfl
    | cons r rest ih =>
      intro done b
      rw [List.foldl_cons, ih, reaperRun_fst, List.append_assoc]
      rfl
  unfold runReapers
  rw [show s.reapers.foldl _ (([] : List Reaper), s.broker) = _ from hfold s.reapers [] s.broker]
  rfl

theorem settle_reapers (hs : s.settle = .ok t) :
    t.reapers = s.reapers.map (·.turned s.moment) := by
  rw [runSockets_eq hs, runReapers_eq, runDriver_moment, runDriver_eq]

/-- Neither the driver nor the reapers touch what is held. -/
theorem runTasks_lists (s : Session) :
    s.runDriver.runReapers.subscriptions = s.subscriptions ∧
      s.runDriver.runReapers.sockets = s.sockets := by
  rw [runReapers_eq, runDriver_eq]
  exact ⟨rfl, rfl⟩

theorem subscriptionOf?_runTasks (s : Session) (l : Listener) :
    s.runDriver.runReapers.subscriptionOf? l = s.subscriptionOf? l := by
  rw [runReapers_eq, runDriver_eq]
  cases l <;> rfl

theorem sent?_runTasks (s : Session) (l : Listener) :
    s.runDriver.runReapers.sent? l = s.sent? l := by
  rw [runReapers_eq, runDriver_eq]
  cases l <;> rfl

/-- A reaper that was not overdue is ahead of its next round. -/
theorem Paced.ready (h : s.Paced) {deadline : Nat} (hd : s.driver = some deadline) :
    Ready s.broker.maxTick deadline s :=
  ⟨h.linked, h.ordered, rfl, h.positive, hd, h.near deadline hd⟩

theorem settle_sockets (h : s.Streaming) (hl : s.broker.Linked) : ∃ t, s.settle = .ok t ∧
    Streamed s.runDriver.runReapers t ∧ ∀ l, t.view l =
      (s.runDriver.runReapers.view l).forwarded s.runDriver.runReapers.broker.gateway.dropped := by
  have hdriven := runDriver_streaming h
  have hlinked : s.runDriver.broker.Linked := (runDriver_leads h).broker ▸ hl.replay _
  exact runSockets_view (runReapers_streaming hdriven hlinked).serves

theorem settle_views (h : s.Streaming) (hl : s.broker.Linked) (hs : s.settle = .ok t) :
    Streamed s.runDriver.runReapers t ∧ ∀ l, t.view l =
      (s.runDriver.runReapers.view l).forwarded s.runDriver.runReapers.broker.gateway.dropped := by
  obtain ⟨t', ht, hsettled⟩ := settle_sockets h hl
  rw [hs] at ht
  cases ht
  exact hsettled

/-- After the tasks the driver, if there is one, sleeps towards a deadline ahead. -/
theorem Paced.settle_driver (h : s.Paced) (hs : s.settle = .ok t) : ∀ deadline ∈ t.driver,
    t.moment.mono < deadline ∧ t.broker.wakeup = false ∧
      deadline ≤ t.moment.mono + t.broker.maxTick := by
  intro deadline hd
  rw [Option.mem_def] at hd
  cases hdriver : s.driver with
  | none =>
    have hnone : s.runDriver.driver = none := by
      unfold runDriver
      rw [hdriver]
      exact hdriver
    rw [(settle_settled h.linked hs).driver, hnone] at hd
    cases hd
  | some before =>
    obtain ⟨plan, hasleep⟩ := (h.ready hdriver).settle hs
    have he := hasleep.driver
    rw [hd] at he
    obtain rfl := Option.some.inj he
    refine ⟨hasleep.ahead, hasleep.noted, ?_⟩
    rw [settle_replays h.linked hs, Broker.replay_maxTick]
    exact hasleep.near

/-- The tasks lead to rest. -/
theorem Paced.rest_of_settle (h : s.Paced) (hs : s.settle = .ok t) : t.AtRest := by
  obtain ⟨hstreamed, hviews⟩ := settle_views h.streaming h.linked hs
  have htick : t.broker.maxTick = s.broker.maxTick := by
    rw [settle_replays h.linked hs, Broker.replay_maxTick]
  have hahead : ∀ r ∈ t.reapers, ∀ next ∈ r.next, t.moment.mono < next ∧ 0 < r.interval := by
    rw [settle_reapers hs, (settle_settled h.linked hs).moment]
    intro r hr
    obtain ⟨before, hb, rfl⟩ := List.mem_map.mp hr
    exact Reaper.turned_ahead (h.reapers before hb)
  have hdriver := h.settle_driver hs
  refine ⟨⟨linked_settle h.linked hs, (settle_leads h.streaming h.linked hs).2,
    (settle_succeeds h.linked hs).ordered h.ordered, htick ▸ h.positive,
    fun deadline hd => (hdriver deadline hd).2.2,
    fun r hr next hn => ⟨Nat.le_of_lt (hahead r hr next hn).1, (hahead r hr next hn).2⟩⟩,
    fun deadline hd => ⟨(hdriver deadline hd).1, (hdriver deadline hd).2.1⟩,
    fun r hr next hn => (hahead r hr next hn).1, fun l => ?_⟩
  rw [hviews, ← (hstreamed.broker fun _ => true).dropped, View.forwarded_forwarded]

theorem Paced.settle (h : s.Paced) : ∃ t, s.settle = .ok t ∧ t.AtRest := by
  obtain ⟨t, hs, -⟩ := settle_sockets h.streaming h.linked
  exact ⟨t, hs, h.rest_of_settle hs⟩

/-! ## Nothing to run -/

/-- No task is due. -/
structure Idle (s : Session) : Prop where
  asleep : ∀ deadline ∈ s.driver, s.moment.mono < deadline ∧ s.broker.wakeup = false
  ahead : ∀ r ∈ s.reapers, ∀ next ∈ r.next, s.moment.mono < next

theorem AtRest.idle (h : s.AtRest) : s.Idle := ⟨h.asleep, h.ahead⟩

theorem Idle.congr (h : s.Idle) (hd : t.driver = s.driver) (hr : t.reapers = s.reapers)
    (hm : t.moment = s.moment) (hw : t.broker.wakeup = s.broker.wakeup) : t.Idle := by
  refine ⟨?_, ?_⟩
  · rw [hd, hm, hw]
    exact h.asleep
  · rw [hr, hm]
    exact h.ahead

theorem Idle.streamed (h : s.Idle) (ht : Streamed s t) : t.Idle := by
  refine h.congr ?_ ?_ ?_ (ht.broker fun _ => true).wakeup.symm
  all_goals rw [ht.eq]

theorem Idle.runDriver (h : s.Idle) : s.runDriver = s := by
  unfold Session.runDriver
  split
  · rfl
  · next deadline hd =>
    obtain ⟨hlt, hw⟩ := h.asleep deadline hd
    rw [if_neg]
    simpa [hw] using hlt

theorem Idle.runReapers (h : s.Idle) : s.runReapers = s := by
  have hone : ∀ r ∈ s.reapers, ∀ b, reaperRun s.moment r b = (r, b) := by
    intro r hr b
    unfold reaperRun
    split
    · next next hn =>
      rw [if_neg (Nat.not_le.mpr (h.ahead r hr next hn))]
    · rfl
  have hreapers : s.reapers.map (·.turned s.moment) = s.reapers := by
    refine (List.map_congr_left fun r hr => ?_).trans (List.map_id _)
    rw [← reaperRun_fst s.moment r s.broker, hone r hr]
    rfl
  have hbroker : s.reapers.foldl (fun b r => (reaperRun s.moment r b).2) s.broker = s.broker := by
    have hfold : ∀ reapers : List Reaper, (∀ r ∈ reapers, r ∈ s.reapers) →
        reapers.foldl (fun b r => (reaperRun s.moment r b).2) s.broker = s.broker := by
      intro reapers
      induction reapers with
      | nil => exact fun _ => rfl
      | cons r rest ih =>
        intro hsub
        rw [List.forall_mem_cons] at hsub
        rw [List.foldl_cons, hone r hsub.1]
        exact ih hsub.2
    exact hfold s.reapers fun _ hr => hr
  rw [runReapers_eq, hreapers, hbroker]

/-- Where no task is due, only the sockets run. -/
theorem Paced.settle_idle (h : s.Paced) (hi : s.Idle) : ∃ t, s.settle = .ok t ∧ Streamed s t ∧
    ∀ l, t.view l = (s.view l).forwarded s.broker.gateway.dropped := by
  have hs := settle_sockets h.streaming h.linked
  rw [hi.runDriver, hi.runReapers] at hs
  exact hs

/-! ## Steps -/

/-- Nobody is left to act for a broker that is dropped. -/
theorem dropBroker_idle (s : Session) (limit : Nat) : (s.dropBroker limit).2.driver = none ∧
    (s.dropBroker limit).2.reapers = [] ∧ (s.dropBroker limit).2.broker.agenda = .empty := by
  simp only [dropBroker, driverEnd]
  split
  · next hn => exact ⟨hn, rfl, rfl⟩
  · exact ⟨rfl, rfl, rfl⟩

theorem Paced.dropBroker (h : s.Paced) (hl : t.broker.Linked) (hs : t.Streaming)
    (htick : t.broker.maxTick = s.broker.maxTick) {limit : Nat}
    (ht : (s.dropBroker limit).2 = t) : t.Paced := by
  obtain ⟨hdriver, hreapers, hagenda⟩ := dropBroker_idle s limit
  rw [ht] at hdriver hreapers hagenda
  refine ⟨hl, hs, hagenda ▸ .empty, htick ▸ h.positive, ?_, ?_⟩
  · rw [hdriver]
    exact fun _ hd => absurd hd (Option.not_mem_none _)
  · rw [hreapers]
    exact fun _ hr => absurd hr List.not_mem_nil

/-- A driver that a step starts is due at once. -/
theorem Paced.act_driver (h : s.Paced) (ht : ∀ ms, x ≠ .advance ms) (hdrop : x.isDrop = false)
    (ha : s.act x = .ok (a, t)) :
    ∀ deadline ∈ t.driver, deadline ≤ s.moment.mono + s.broker.maxTick := by
  have hacted := act_acted ht hdrop ha
  cases x with
  | startDriver =>
    cases ha
    rintro deadline ⟨⟩
    exact Nat.le_add_right _ _
  | stopDriver =>
    cases ha
    exact fun _ hd => absurd hd (Option.not_mem_none _)
  | dropBroker => cases hdrop
  | _ =>
    rw [hacted.driver rfl]
    exact h.near

/-- A reaper that a step starts is due at once, unless it never is. -/
theorem Paced.act_reapers (h : s.Paced) (ht : ∀ ms, x ≠ .advance ms) (hdrop : x.isDrop = false)
    (ha : s.act x = .ok (a, t)) :
    ∀ r ∈ t.reapers, ∀ next ∈ r.next, s.moment.mono ≤ next ∧ 0 < r.interval := by
  have hacted := act_acted ht hdrop ha
  cases x with
  | startReaper timeout interval =>
    cases ha
    intro r hr next hn
    rcases List.mem_append.mp hr with hr | hr
    · exact h.reapers r hr next hn
    · rw [List.mem_singleton.mp hr] at hn ⊢
      by_cases hzero : interval = 0
      · simp [hzero] at hn
      · simp only [hzero, if_false, Option.mem_def, Option.some.injEq] at hn
        exact ⟨Nat.le_of_eq hn, Nat.pos_of_ne_zero hzero⟩
  | dropBroker => cases hdrop
  | _ =>
    rw [hacted.reapers rfl]
    exact h.reapers

theorem act_paced (h : s.Paced) (ht : ∀ ms, x ≠ .advance ms)
    (hx : s.broker.gateway.dropped = true → x.outlivesBroker = true)
    (ha : s.act x = .ok (a, t)) : t.Paced := by
  have hlinked := linked_act h.linked ha
  have hstreaming := act_streaming h.streaming h.linked ht hx ha
  have htick : t.broker.maxTick = s.broker.maxTick := by
    rw [act_replays h.linked ht ha, Broker.replay_maxTick]
  cases hdrop : x.isDrop with
  | true =>
    cases x with
    | dropBroker limit =>
      exact h.dropBroker hlinked hstreaming htick (congrArg Prod.snd (Except.ok.inj ha))
    | _ => cases hdrop
  | false =>
    have hmono := (act_acted ht hdrop ha).mono
    have hordered : t.broker.agenda.Ordered := by
      rw [act_replays h.linked ht ha]
      refine (s.broker.replay_succeeds fun d hd => ?_).ordered h.ordered
      exact Action.isDrop_of_isOrdinary (callerDeeds_ordinary hdrop hd)
    refine ⟨hlinked, hstreaming, hordered, htick ▸ h.positive, ?_, ?_⟩
    · rw [htick, hmono]
      exact h.act_driver ht hdrop ha
    · rw [hmono]
      exact h.act_reapers ht hdrop ha

/-- A millisecond passes. -/
theorem AtRest.tick (h : s.AtRest) : Paced { s with moment := s.moment.after 1 } where
  linked := h.linked
  streaming := ⟨h.streaming.serves, h.streaming.ended⟩
  ordered := h.ordered
  positive := h.positive
  near deadline hd := by
    have := h.near deadline hd
    simp only [Moment.after]
    omega
  reapers r hr next hn := by
    have hlt := h.ahead r hr next hn
    exact ⟨hlt, (h.reapers r hr next hn).2⟩

theorem AtRest.pass (h : s.AtRest) (n : Nat) : ∃ t, Session.pass n s = .ok t ∧ t.AtRest := by
  induction n generalizing s with
  | zero => exact ⟨s, rfl, h⟩
  | succ n ih =>
    obtain ⟨mid, hs, hmid⟩ := h.tick.settle
    obtain ⟨t, hp, ht⟩ := ih hmid
    exact ⟨t, pass_succ_eq_ok_iff.mpr ⟨mid, hs, hp⟩, ht⟩

theorem AtRest.advance (h : s.AtRest) (ms : Nat) :
    ∃ t, Session.advance ms s = .ok t ∧ t.AtRest := by
  unfold Session.advance
  by_cases hw : s.isWaiting = true
  · rw [if_pos hw]
    exact h.pass ms
  · rw [if_neg hw]
    simp only [isWaiting, Bool.or_eq_true, Option.isSome_iff_ne_none, Bool.not_eq_true',
      List.isEmpty_eq_false_iff, not_or, not_not] at hw
    refine ⟨_, rfl, ⟨h.linked, ⟨h.streaming.serves, h.streaming.ended⟩, h.ordered, h.positive,
      ?_, ?_⟩, ?_, ?_, h.flushed⟩
    · rw [hw.1]
      exact fun _ hd => absurd hd (Option.not_mem_none _)
    · rw [hw.2]
      exact fun _ hr => absurd hr List.not_mem_nil
    · rw [hw.1]
      exact fun _ hd => absurd hd (Option.not_mem_none _)
    · rw [hw.2]
      exact fun _ hr => absurd hr List.not_mem_nil

theorem AtRest.rest_of_advance (h : s.AtRest) {ms : Nat} (ha : Session.advance ms s = .ok t) :
    t.AtRest := by
  obtain ⟨t', ht, hrest⟩ := h.advance ms
  rw [ha] at ht
  cases ht
  exact hrest

/-- Whatever a step does before the tasks run, nothing is overdue. -/
theorem AtRest.acted (h : s.AtRest)
    (hx : s.broker.gateway.dropped = true → x.outlivesBroker = true)
    (ha : s.act x = .ok (a, t)) : t.Paced := by
  by_cases hadv : ∃ ms, x = .advance ms
  · obtain ⟨ms, rfl⟩ := hadv
    obtain ⟨later, hp, he⟩ := map_eq_ok_iff.mp ha
    cases he
    exact (h.rest_of_advance hp).toPaced
  · exact act_paced h.toPaced (fun ms he => hadv ⟨ms, he⟩) hx ha

/-- Every step leads from rest to rest. -/
theorem AtRest.step (h : s.AtRest)
    (hx : s.broker.gateway.dropped = true → x.outlivesBroker = true)
    (hs : s.step x = .ok (a, t)) : t.AtRest := by
  obtain ⟨acted, ha, ht⟩ := step_eq_ok_iff.mp hs
  exact (h.acted hx ha).rest_of_settle ht

theorem AtRest.run {steps : List Step} {answers : List Answer} (h : s.AtRest)
    (hs : Sensible steps)
    (hx : s.broker.gateway.dropped = true → ∀ x ∈ steps, x.outlivesBroker = true)
    (hr : s.run steps = .ok (answers, t)) : t.AtRest := by
  induction steps generalizing s answers with
  | nil =>
    cases hr
    exact h
  | cons x rest ih =>
    obtain ⟨a, mid, later, hstep, htail, -⟩ := run_cons_eq_ok_iff.mp hr
    have hout := fun hd => hx hd x List.mem_cons_self
    obtain ⟨hrest, hlater⟩ :=
      hs.step h.streaming hx (step_leads h.streaming h.linked hout hstep).1
    exact ih (h.step hout hstep) hrest hlater htail

theorem outlivesBroker_of_listener {l : Listener} (hx : x.listener? = some l) :
    x.outlivesBroker = true := by
  cases x with
  | receive | receiveOne | unsubscribe | readSocket | send | closeSocket => rfl
  | _ => cases hx

/-- What a listener does at rest, the other listeners do not see. -/
theorem AtRest.step_turned (h : s.AtRest) {l : Listener} (hx : x.listener? = some l) :
    ∃ a t, s.step x = .ok (a, t) ∧ Streamed s t ∧
      a = ((s.view l).turn s.broker.gateway.dropped x).1 ∧
      t.view l = ((s.view l).turn s.broker.gateway.dropped x).2.forwarded
        s.broker.gateway.dropped ∧
      ∀ l', l' ≠ l → t.view l' = s.view l' := by
  obtain ⟨a, acted, ha, hturned⟩ := act_turned h.streaming.serves hx
  have hpaced := h.acted (fun _ => outlivesBroker_of_listener hx) ha
  have hstreamed := hturned.toStreamed
  obtain ⟨t, hs, hlater, hviews⟩ := hpaced.settle_idle (h.idle.streamed hstreamed)
  rw [← (hstreamed.broker fun _ => true).dropped] at hviews
  refine ⟨a, t, step_eq_ok_iff.mpr ⟨acted, ha, hs⟩, hstreamed.trans hlater,
    congrArg Prod.fst hturned.own, ?_, fun l' hne => ?_⟩
  · rw [hviews, ← hturned.own]
  · rw [hviews, hturned.others l' hne, h.flushed l']

theorem AtRest.turned (h : s.AtRest) {l : Listener} (hx : x.listener? = some l)
    (hs : s.step x = .ok (a, t)) : Streamed s t ∧
      a = ((s.view l).turn s.broker.gateway.dropped x).1 ∧
      t.view l = ((s.view l).turn s.broker.gateway.dropped x).2.forwarded
        s.broker.gateway.dropped ∧
      ∀ l', l' ≠ l → t.view l' = s.view l' := by
  obtain ⟨a', t', ht, hturned⟩ := h.step_turned hx
  rw [hs] at ht
  cases ht
  exact hturned

theorem AtRest.new {settings : BrokerSettings} {b : Broker} (hb : Broker.new settings = .ok b)
    (supply : IdSupply) (m : Moment) : (Session.new supply b m).AtRest := by
  have hstreaming := Streaming.new hb supply m
  refine ⟨⟨.new hb, hstreaming, ?_, ?_, ?_, ?_⟩, ?_, ?_, ?_⟩
  · rw [Broker.new_eq hb]
    exact .empty
  · rw [Broker.new_eq hb]
    exact Nat.lt_of_lt_of_le Nat.one_pos (Nat.le_max_right _ _)
  · exact fun _ hd => absurd hd (Option.not_mem_none _)
  · exact fun _ hr => absurd hr List.not_mem_nil
  · exact fun _ hd => absurd hd (Option.not_mem_none _)
  · exact fun _ hr => absurd hr List.not_mem_nil
  · intro l
    cases l <;> rfl

end Session

end EventBroker
