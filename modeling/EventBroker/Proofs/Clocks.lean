import EventBroker.Proofs.Beats

/-! # The clocks over a run

Each deed is done at the moment of the session that does it. A step leaves both clocks alone, lets
them run on together, or sets the wall clock. So any relation between moments that no passing of
time breaks holds from the start of a step to each of its deeds, and from there to its end
(`step_moments`); `run_moments` says the same for runs. It is used for two such relations: the
monotonic clock never goes back, and unless the wall clock is set both clocks run in step.
-/
set_option autoImplicit false

namespace EventBroker

theorem Moment.after_zero (m : Moment) : m.after 0 = m := by
  simp [Moment.after]

theorem Moment.after_after (m : Moment) (k n : Nat) : (m.after k).after n = m.after (k + n) := by
  simp only [Moment.after, Moment.mk.injEq]
  omega

/-! ## The moments of deeds -/

section DeedMoments

variable {b : Broker} {m : Moment} {d : Deed}

theorem Broker.fireDeeds_moment {now : Nat} (hd : d ∈ b.fireDeeds now m) : d.moment = m := by
  rcases List.mem_cons.mp hd with rfl | hd
  · rfl
  · obtain ⟨r, -, rfl⟩ := List.mem_map.mp hd
    rfl

theorem Broker.deleteQueueDeeds_moment {id : String} (hd : d ∈ b.deleteQueueDeeds id m) :
    d.moment = m := by
  unfold Broker.deleteQueueDeeds at hd
  split at hd
  · rcases List.mem_cons.mp hd with rfl | hd
    · rfl
    · rw [List.mem_singleton.mp hd]
  · cases hd

theorem Broker.submitDeeds_moment {id : EventId} {event : NewEvent}
    (hd : d ∈ b.submitDeeds id event m) : d.moment = m := by
  unfold Broker.submitDeeds at hd
  split at hd
  · rw [List.mem_singleton.mp hd]
  · cases hd

theorem Broker.closeDeeds_moment {id : ChannelId} (hd : d ∈ b.closeDeeds id m) : d.moment = m := by
  unfold Broker.closeDeeds at hd
  split at hd
  · rw [List.mem_singleton.mp hd]
  · cases hd

theorem Broker.reapDeeds_moment {timeout : Nat} (hd : d ∈ b.reapDeeds timeout m) :
    d.moment = m := by
  obtain ⟨c, -, rfl⟩ := List.mem_map.mp hd
  rfl

theorem Api.deeds_moment {fresh : Api.FreshIds} {req : Http.Request}
    (hd : d ∈ Api.deeds b fresh m req) : d.moment = m := by
  unfold Api.deeds at hd
  split at hd
  · cases hd
  split at hd
  · cases hd
  unfold Api.resourceDeeds at hd
  split at hd
  · obtain ⟨body, -, hd⟩ := List.mem_flatMap.mp hd
    rw [List.mem_singleton.mp hd]
  · obtain ⟨id, -, hd⟩ := List.mem_flatMap.mp hd
    exact Broker.deleteQueueDeeds_moment hd
  · obtain ⟨body, -, hd⟩ := List.mem_flatMap.mp hd
    exact Broker.submitDeeds_moment hd
  · obtain ⟨body, -, hd⟩ := List.mem_flatMap.mp hd
    rw [List.mem_singleton.mp hd]
  · obtain ⟨id, -, hd⟩ := List.mem_flatMap.mp hd
    rw [List.mem_singleton.mp hd]
  · obtain ⟨id, -, hd⟩ := List.mem_flatMap.mp hd
    exact Broker.closeDeeds_moment hd
  · obtain ⟨id, -, hd⟩ := List.mem_flatMap.mp hd
    rw [List.mem_singleton.mp hd]
  · split at hd
    · obtain ⟨category, -, hd⟩ := List.mem_flatMap.mp hd
      rw [List.mem_singleton.mp hd]
    · cases hd
  · cases hd

end DeedMoments

namespace Session

variable {s s' found : Session} {x : Step} {a : Answer} {d : Deed}

theorem callerDeeds_moment (hd : d ∈ s.callerDeeds x) : d.moment = s.moment := by
  cases x with
  | createQueue | createChannel | subscribe | dropBroker => rw [List.mem_singleton.mp hd]
  | deleteQueue id => exact Broker.deleteQueueDeeds_moment hd
  | submit event => exact Broker.submitDeeds_moment hd
  | getChannel text | dequeue text =>
    obtain ⟨id, -, hd⟩ := List.mem_flatMap.mp hd
    rw [List.mem_singleton.mp hd]
  | deleteChannel text =>
    obtain ⟨id, -, hd⟩ := List.mem_flatMap.mp hd
    exact Broker.closeDeeds_moment hd
  | reap timeout => exact Broker.reapDeeds_moment hd
  | fire now => exact Broker.fireDeeds_moment hd
  | receive | receiveOne | unsubscribe =>
    obtain ⟨sub, -, rfl⟩ := List.mem_map.mp hd
    rfl
  | http request =>
    obtain ⟨req, -, hd⟩ := List.mem_flatMap.mp hd
    exact Api.deeds_moment hd
  | connect path =>
    obtain ⟨req, -, hd⟩ := List.mem_flatMap.mp hd
    exact Api.deeds_moment hd
  | send index message =>
    cases message with
    | ping text =>
      simp only [callerDeeds] at hd
      split at hd
      · cases hd
      · obtain ⟨socket, -, hd⟩ := List.mem_flatMap.mp hd
        obtain ⟨sub, -, rfl⟩ := endDeeds_eq hd
        rfl
    | text | binary => cases hd
  | closeSocket index abrupt =>
    obtain ⟨socket, -, hd⟩ := List.mem_flatMap.mp hd
    obtain ⟨sub, -, rfl⟩ := endDeeds_eq hd
    rfl
  | listQueues | getQueue | listChannels | now | advance | setWall | subscriberCount | metrics
  | startDriver | stopDriver | startReaper | readSocket => cases hd

theorem driverDeeds_moment (hd : d ∈ s.driverDeeds) : d.moment = s.moment := by
  unfold driverDeeds at hd
  split at hd
  · cases hd
  split at hd
  · rw [driverRunDeeds, List.mem_append] at hd
    rcases hd with hd | hd
    · exact Broker.fireDeeds_moment hd
    · split at hd
      · rcases List.mem_cons.mp hd with rfl | hd
        · rfl
        · exact Broker.fireDeeds_moment hd
      · cases hd
  · cases hd

theorem taskDeeds_moment (hd : d ∈ s.taskDeeds) : d.moment = s.moment := by
  simp only [taskDeeds, List.mem_append] at hd
  rcases hd with (hd | hd) | hd
  · exact driverDeeds_moment hd
  · obtain ⟨serial, rfl⟩ := reapersDeeds_kind hd
    rfl
  · obtain ⟨socket, -, sub, -, rfl | rfl⟩ := socketsDeeds_kind hd <;> rfl

/-! ## What a step does to the clocks -/

theorem act_moment (h : s.broker.Linked) (ha : s.act x = .ok (a, s')) :
    (∃ n, s'.moment = s.moment.after n) ∨
      x.setsWall = true ∧ ∃ wall, s'.moment = s.moment.withWall wall := by
  by_cases hadv : ∃ ms, x = .advance ms
  · obtain ⟨ms, rfl⟩ := hadv
    obtain ⟨end', hp, he⟩ := map_eq_ok_iff.mp ha
    cases he
    unfold advance at hp
    split at hp
    · exact .inl ⟨ms, pass_moment h hp⟩
    · cases hp
      exact .inl ⟨ms, rfl⟩
  by_cases hdrop : ∃ limit, x = .dropBroker limit
  · obtain ⟨limit, rfl⟩ := hdrop
    have he : s' = (s.dropBroker limit).2 := (congrArg Prod.snd (Except.ok.inj ha)).symm
    rw [he, Session.dropBroker, driverEnd]
    split
    · exact .inl ⟨0, (Moment.after_zero _).symm⟩
    · exact .inl ⟨_, rfl⟩
  by_cases hwall : ∃ ms, x = .setWall ms
  · obtain ⟨ms, rfl⟩ := hwall
    cases ha
    exact .inr ⟨rfl, ms, rfl⟩
  · have hd : x.isDrop = false := by
      cases x with
      | dropBroker limit => exact absurd ⟨limit, rfl⟩ hdrop
      | _ => rfl
    have hw : x.setsWall = false := by
      cases x with
      | setWall ms => exact absurd ⟨ms, rfl⟩ hwall
      | _ => rfl
    have hacted := act_acted (fun ms he => hadv ⟨ms, he⟩) hd ha
    exact .inl ⟨0, (hacted.moment hw).trans (Moment.after_zero _).symm⟩

/-- While milliseconds pass, the tasks run at each of them. -/
theorem passBeats_moment {n : Nat} (h : s.broker.Linked) (hp : pass n s = .ok s') :
    (passBeats n s).map (·.moment) = (List.range n).map fun k => s.moment.after (k + 1) := by
  induction n generalizing s with
  | zero => rfl
  | succ n ih =>
    obtain ⟨mid, hs, hrest⟩ := pass_succ_eq_ok_iff.mp hp
    have hl := linked_settle (s := { s with moment := s.moment.after 1 }) h hs
    have hm := settle_moment (s := { s with moment := s.moment.after 1 }) h hs
    simp only [passBeats, hs, List.map_cons, List.range_succ_eq_map, List.map_map]
    rw [ih hl hrest, hm]
    simp [Function.comp_def, Moment.after_after, Nat.add_comm, Nat.add_left_comm]

/-! ## Relations that time does not break -/

section Onward

variable {R : Moment → Moment → Prop} (hafter : ∀ m n, R m (m.after n))

include hafter

/-- From the start of a step to each time that the tasks run, and from there to its end. -/
theorem beat_moment (h : s.broker.Linked)
    (hwall : x.setsWall = true → ∀ m wall, R m (m.withWall wall)) (hs : s.step x = .ok (a, s'))
    (hf : found ∈ s.beats x) :
    R s.moment found.moment ∧ R found.moment s'.moment := by
  have hrefl : ∀ m, R m m := fun m => by simpa [Moment.after_zero] using hafter m 0
  obtain ⟨acted, ha, ht⟩ := step_eq_ok_iff.mp hs
  have hm := settle_moment (linked_act h ha) ht
  simp only [beats, ha, List.mem_append, List.mem_singleton] at hf
  rw [hm]
  rcases hf with hf | rfl
  · cases x with
    | advance ms =>
      obtain ⟨end', hp, he⟩ := map_eq_ok_iff.mp ha
      cases he
      simp only [innerBeats] at hf
      split at hf
      · next hw =>
        rw [advance, if_pos hw] at hp
        have hmem : found.moment ∈ (passBeats ms s).map (·.moment) := List.mem_map_of_mem hf
        rw [passBeats_moment h hp] at hmem
        obtain ⟨k, hk, hfm⟩ := List.mem_map.mp hmem
        have hk := List.mem_range.mp hk
        rw [pass_moment h hp, ← hfm]
        refine ⟨hafter _ _, ?_⟩
        have hsum := hafter (s.moment.after (k + 1)) (ms - (k + 1))
        rwa [Moment.after_after, Nat.add_sub_cancel' hk] at hsum
      · cases hf
    | _ => cases hf
  · refine ⟨?_, hrefl _⟩
    rcases act_moment h ha with ⟨n, hn⟩ | ⟨hw, wall, hn⟩
    · rw [hn]
      exact hafter _ _
    · rw [hn]
      exact hwall hw _ _

/-- From the start of a step to each of its deeds, and from there to its end. -/
theorem step_moments (h : s.broker.Linked)
    (hwall : x.setsWall = true → ∀ m wall, R m (m.withWall wall)) (hs : s.step x = .ok (a, s')) :
    R s.moment s'.moment ∧ ∀ d ∈ s.stepDeeds x, R s.moment d.moment ∧ R d.moment s'.moment := by
  obtain ⟨acted, ha, ht⟩ := step_eq_ok_iff.mp hs
  have hrefl : ∀ m, R m m := fun m => by simpa [Moment.after_zero] using hafter m 0
  have hend : R s.moment s'.moment := by
    have hlast : acted ∈ s.beats x := by simp [beats, ha]
    have := (beat_moment hafter h hwall hs hlast).1
    rwa [← settle_moment (linked_act h ha) ht] at this
  refine ⟨hend, fun d hd => ?_⟩
  rw [stepDeeds, List.mem_append, List.mem_flatMap] at hd
  rcases hd with hd | ⟨found, hf, hd⟩
  · rw [callerDeeds_moment hd]
    exact ⟨hrefl _, hend⟩
  · rw [taskDeeds_moment hd]
    exact beat_moment hafter h hwall hs hf

theorem run_moments {steps : List Step} {answers : List Answer}
    (htrans : ∀ {m m' m''}, R m m' → R m' m'' → R m m'') (h : s.broker.Linked)
    (hwall : ∀ x ∈ steps, x.setsWall = true → ∀ m wall, R m (m.withWall wall))
    (hr : s.run steps = .ok (answers, s')) :
    R s.moment s'.moment ∧ ∀ d ∈ s.deeds steps, R s.moment d.moment ∧ R d.moment s'.moment := by
  induction steps generalizing s answers with
  | nil =>
    cases hr
    have hrefl := hafter s'.moment 0
    rw [Moment.after_zero] at hrefl
    exact ⟨hrefl, fun d hd => absurd hd List.not_mem_nil⟩
  | cons x rest ih =>
    obtain ⟨a, mid, later, hx, hr, -⟩ := run_cons_eq_ok_iff.mp hr
    rw [List.forall_mem_cons] at hwall
    obtain ⟨hmid, hfirst⟩ := step_moments hafter h hwall.1 hx
    obtain ⟨hend, hrest⟩ := ih (linked_step h hx) hwall.2 hr
    refine ⟨htrans hmid hend, fun d hd => ?_⟩
    simp only [deeds, hx, List.mem_append] at hd
    rcases hd with hd | hd
    · exact ⟨(hfirst d hd).1, htrans (hfirst d hd).2 hend⟩
    · exact ⟨htrans hmid (hrest d hd).1, (hrest d hd).2⟩

end Onward

/-- The monotonic clock never goes back. -/
theorem run_mono {steps : List Step} {answers : List Answer} (h : s.broker.Linked)
    (hr : s.run steps = .ok (answers, s')) :
    s.moment.mono ≤ s'.moment.mono ∧
      ∀ d ∈ s.deeds steps, s.moment.mono ≤ d.moment.mono ∧ d.moment.mono ≤ s'.moment.mono :=
  run_moments (R := fun m m' => m.mono ≤ m'.mono) (fun m n => Nat.le_add_right m.mono n)
    Nat.le_trans h (fun _ _ _ _ _ => Nat.le_refl _) hr

end Session

end EventBroker
