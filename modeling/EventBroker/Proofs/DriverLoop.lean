import EventBroker.Proofs.Arming
import EventBroker.Proofs.SessionDeeds

/-! # The driver's loop

The driver fires what is due and plans when to wake up, and starts over as long as it finds that
something was armed (`Sleeps`). On an ordered agenda every plan is `Planned` well: it lies ahead, by
at most the longest sleep, and no rule that is left comes before it. The loop ends after at most two
rounds (`driverRun_sleeps`), and what fires in it was due (`due_of_driverDeeds`).
-/
set_option autoImplicit false

namespace EventBroker

namespace Agenda

variable {a : Agenda} {maxTick now : Nat}

theorem sleepFor_le (a : Agenda) (maxTick now : Nat) : a.sleepFor maxTick now ≤ maxTick := by
  unfold sleepFor
  split
  · exact Nat.le_refl _
  · exact Nat.min_le_right _ _

theorem sleepFor_pos (ht : 0 < maxTick) (hr : ∀ r ∈ a.rules, now < r.fireAt) :
    0 < a.sleepFor maxTick now := by
  unfold sleepFor
  split
  · exact ht
  · next r rest he =>
    have := hr r (he ▸ List.mem_cons_self)
    omega

/-- The sleep ends no later than any rule is due: the first one is the earliest. -/
theorem Ordered.sleepFor_le_of_mem (h : a.Ordered) (maxTick now : Nat) {r : ArmedRule}
    (hr : r ∈ a.rules) : a.sleepFor maxTick now ≤ r.fireAt - now := by
  have hs := h.sorted
  unfold sleepFor
  split
  · next he =>
    rw [he] at hr
    cases hr
  · next first rest he =>
    rw [he] at hr hs
    have hle : first.fireAt ≤ r.fireAt := by
      rcases List.mem_cons.mp hr with rfl | hr
      · exact Nat.le_refl _
      · exact ArmedRule.fireAt_le_of_le ((List.pairwise_cons.mp hs).1 r hr)
    omega

/-- Nothing is due any more once everything due has been popped. -/
theorem Ordered.popDue_popDue (h : a.Ordered) (now : Nat) :
    (a.popDue now).2.popDue now = ([], (a.popDue now).2) := by
  have hdue : ((a.popDue now).2.popDue now).1 = [] := by
    rw [List.eq_nil_iff_forall_not_mem]
    intro r hr
    have := h.lt_of_mem_left (mem_of_mem_due hr)
    have := fireAt_le_of_mem_due hr
    omega
  have hleft := popDue_append (a.popDue now).2 now
  rw [hdue, List.nil_append] at hleft
  refine Prod.ext hdue ?_
  calc ((a.popDue now).2.popDue now).2
      = ⟨((a.popDue now).2.popDue now).2.rules, a.nextOrder⟩ := rfl
    _ = (a.popDue now).2 := by rw [hleft]; rfl

end Agenda

namespace Session

/-- The driver's loop while the clocks stand still. It fires what is due and plans when to wake up,
and wakes up at once if something was armed since it last took note. The list has all its plans. -/
inductive Sleeps (m : Moment) : Broker → List Nat → Nat × Broker → Prop
  | asleep {b : Broker} (h : (driverRound b m).2.wakeup = false) :
      Sleeps m b [(driverRound b m).1] (driverRound b m)
  | woken {b : Broker} {plans : List Nat} {result : Nat × Broker}
      (h : (driverRound b m).2.wakeup = true)
      (rest : Sleeps m { (driverRound b m).2 with wakeup := false } plans result) :
      Sleeps m b ((driverRound b m).1 :: plans) result

/-- What is good about a time for waking up: it is later than now by at most one tick, and nothing
that is armed comes before it. -/
structure Planned (m : Moment) (tick : Nat) (a : Agenda) (plan : Nat) : Prop where
  ahead : m.mono < plan
  near : plan ≤ m.mono + tick
  later : ∀ r ∈ a.rules, m.now < r.fireAt
  first : ∀ r ∈ a.rules, plan + m.now ≤ m.mono + r.fireAt

variable {b : Broker} {m : Moment}

/-! ## One round -/

theorem driverRound_broker (b : Broker) (m : Moment) :
    (driverRound b m).2 = b.replay (b.fireDeeds m.now m) := (b.replay_fireDeeds m.now m).symm

theorem driverRound_agenda (b : Broker) (m : Moment) :
    (driverRound b m).2.agenda = (b.agenda.popDue m.now).2 := by
  rw [driverRound_broker, Broker.fireDeeds_agenda]

theorem driverRound_wakeup (b : Broker) (m : Moment) :
    (driverRound b m).2.wakeup = b.wakeup := by
  rw [driverRound_broker]
  refine Broker.replay_wakeup fun d hd => ?_
  rcases List.mem_cons.mp hd with rfl | hd
  · rfl
  · obtain ⟨r, -, rfl⟩ := List.mem_map.mp hd
    rfl

theorem driverRound_plan (b : Broker) (m : Moment) : (driverRound b m).1 =
    m.mono + (b.agenda.popDue m.now).2.sleepFor b.maxTick m.now := by
  have ht : (driverRound b m).2.maxTick = b.maxTick := by
    rw [driverRound_broker, Broker.replay_maxTick]
  calc (driverRound b m).1
      = m.mono + (driverRound b m).2.agenda.sleepFor (driverRound b m).2.maxTick m.now := rfl
    _ = m.mono + (b.agenda.popDue m.now).2.sleepFor b.maxTick m.now := by
      rw [driverRound_agenda, ht]

theorem driverRound_planned (h : b.agenda.Ordered) (ht : 0 < b.maxTick) (m : Moment) :
    Planned m b.maxTick (b.agenda.popDue m.now).2 (driverRound b m).1 := by
  have hlater : ∀ r ∈ (b.agenda.popDue m.now).2.rules, m.now < r.fireAt :=
    fun r hr => h.lt_of_mem_left hr
  have hpos := Agenda.sleepFor_pos ht hlater
  have hle := (b.agenda.popDue m.now).2.sleepFor_le b.maxTick m.now
  rw [driverRound_plan]
  refine ⟨by omega, by omega, hlater, fun r hr => ?_⟩
  have := hlater r hr
  have := (h.popDue m.now).sleepFor_le_of_mem b.maxTick m.now hr
  omega

/-! ## All rounds -/

/-- In the second round nothing is due, and the plan is the same. -/
theorem driverRun_eq (h : b.agenda.Ordered) (m : Moment) :
    (driverRun b m).1 = (driverRound b m).1 ∧
      (driverRun b m).2.agenda = (b.agenda.popDue m.now).2 ∧
      (driverRun b m).2.wakeup = false := by
  unfold driverRun
  simp only
  split
  · have ht : (driverRound b m).2.maxTick = b.maxTick := by
      rw [driverRound_broker, Broker.replay_maxTick]
    refine ⟨?_, ?_, driverRound_wakeup _ m⟩
    · rw [driverRound_plan, driverRound_plan, driverRound_agenda, h.popDue_popDue, ht]
    · rw [driverRound_agenda, driverRound_agenda, h.popDue_popDue]
  · next hw => exact ⟨rfl, driverRound_agenda b m, Bool.eq_false_iff.mpr hw⟩

theorem driverRun_planned (h : b.agenda.Ordered) (ht : 0 < b.maxTick) (m : Moment) :
    Planned m b.maxTick (driverRun b m).2.agenda (driverRun b m).1 := by
  obtain ⟨hp, ha, -⟩ := driverRun_eq h m
  rw [hp, ha]
  exact driverRound_planned h ht m

theorem driverRun_sleeps (h : b.agenda.Ordered) (ht : 0 < b.maxTick) (m : Moment) :
    ∃ plans, Sleeps m b plans (driverRun b m) ∧ plans.length ≤ 2 ∧
      ∀ plan ∈ plans, m.mono < plan ∧ plan ≤ m.mono + b.maxTick := by
  have hp := driverRound_planned h ht m
  cases hw : (driverRound b m).2.wakeup with
  | false =>
    have hd : driverRun b m = driverRound b m := by simp [driverRun, hw]
    rw [hd]
    refine ⟨_, .asleep hw, by simp, fun plan hm => ?_⟩
    rw [List.mem_singleton.mp hm]
    exact ⟨hp.ahead, hp.near⟩
  | true =>
    have hd : driverRun b m = driverRound { (driverRound b m).2 with wakeup := false } m := by
      simp [driverRun, hw]
    have he := (driverRun_eq h m).1
    rw [hd] at he ⊢
    refine ⟨_, .woken hw (.asleep (driverRound_wakeup _ m)), by simp, fun plan hm => ?_⟩
    rw [he] at hm
    simp only [List.mem_cons, List.not_mem_nil, or_false, or_self] at hm
    rw [hm]
    exact ⟨hp.ahead, hp.near⟩

/-! ## What fires in it -/

theorem deed_of_firing {deeds : List Deed} {f : Firing} (hf : f ∈ firings (b.journal deeds)) :
    ⟨f.moment, .fire f.rule⟩ ∈ deeds := by
  obtain ⟨⟨b', m, action⟩, hy, he⟩ := List.mem_filterMap.mp hf
  cases action with
  | fire rule =>
    obtain ⟨q, -, rfl⟩ := Option.map_eq_some_iff.mp he
    exact Broker.mem_of_mem_journal hy
  | _ => cases he

theorem due_of_fireDeeds {now : Nat} {m' : Moment} {rule : ArmedRule}
    (h : ⟨m', .fire rule⟩ ∈ b.fireDeeds now m) : rule ∈ (b.agenda.popDue now).1 ∧ m' = m := by
  rcases List.mem_cons.mp h with he | h
  · cases he
  · obtain ⟨r, hr, he⟩ := List.mem_map.mp h
    cases he
    exact ⟨hr, rfl⟩

theorem due_of_driverRunDeeds {m' : Moment} {rule : ArmedRule}
    (h : ⟨m', .fire rule⟩ ∈ driverRunDeeds b m) :
    rule ∈ b.agenda.rules ∧ rule.fireAt ≤ m.now ∧ m' = m := by
  rw [driverRunDeeds, List.mem_append] at h
  rcases h with h | h
  · obtain ⟨hr, he⟩ := due_of_fireDeeds h
    exact ⟨Agenda.mem_of_mem_due hr, Agenda.fireAt_le_of_mem_due hr, he⟩
  · split at h
    · rcases List.mem_cons.mp h with he | h
      · cases he
      · obtain ⟨hr, he⟩ := due_of_fireDeeds h
        have hm : rule ∈ (driverRound b m).2.agenda.rules := Agenda.mem_of_mem_due hr
        rw [driverRound_agenda] at hm
        exact ⟨Agenda.mem_of_mem_left hm, Agenda.fireAt_le_of_mem_due hr, he⟩
    · cases h

/-- What the driver fires is armed and due at that moment. -/
theorem due_of_driverDeeds {s : Session} {f : Firing}
    (hf : f ∈ firings (s.broker.journal s.driverDeeds)) :
    f.rule ∈ s.broker.agenda.rules ∧ f.rule.fireAt ≤ s.moment.now ∧
      f.event.firedAt = s.moment.now := by
  have hd := deed_of_firing hf
  unfold driverDeeds at hd
  split at hd
  · cases hd
  split at hd
  · obtain ⟨hr, hdue, hm⟩ := due_of_driverRunDeeds hd
    exact ⟨hr, hdue, congrArg Moment.now hm⟩
  · cases hd

end Session

end EventBroker
