import EventBroker.Proofs.Books

/-! # The books of the queues

Every incarnation counts the rules that are pending for it, and the broker counts what has fired and
what was dropped. `Accounted` says that the books are right, also in the middle of firing, when some
rules are off the agenda and have not had their turn. Between steps nothing is in between, and no
armed rule aims at an incarnation that is not registered.
-/
set_option autoImplicit false

namespace EventBroker

namespace Broker

variable {b b' : Broker}

/-! ## The books -/

/-- The books are right, with some rules taken out to fire. -/
structure Accounted (b : Broker) (held : List ArmedRule) : Prop where
  aimed : ∀ r ∈ held ++ b.agenda.rules, (b.firing? r).isSome = true
  pending : ∀ t q, b.registry.get? t = some q →
    q.pending = Agenda.aimedAt (held ++ b.agenda.rules) t
  dropped : b.metrics.rulesDropped = 0

namespace Accounted

variable {held : List ArmedRule}

theorem balanced (h : Accounted b held) : Balanced b held where
  recorded r hr := (firing?_isSome_iff.mp (h.aimed r hr)).imp fun _ hq => hq.1
  pending := h.pending

theorem sameBooks (h : Accounted b held) (ha : b'.agenda = b.agenda)
    (hs : SameBooks b.registry b'.registry)
    (hd : b'.metrics.rulesDropped = b.metrics.rulesDropped) : Accounted b' held where
  aimed r hr := by
    rw [ha] at hr
    obtain ⟨q, hq, hr⟩ := firing?_isSome_iff.mp (h.aimed r hr)
    obtain ⟨q', hq', -, hr'⟩ := hs.kept _ q hq
    exact firing?_isSome_iff.mpr ⟨q', hq', hr'.trans hr⟩
  pending := (h.balanced.sameBooks ha hs).pending
  dropped := hd.trans h.dropped

theorem perform (h : Accounted b held) {d : Deed} (hd : d.action.sparesBooks = true) :
    Accounted (b.perform d) held := by
  have ha : d.action.sparesAgenda = true ∧ d.action.fires = false := by
    obtain ⟨m, action⟩ := d
    cases action <;> first | cases hd; done | exact ⟨rfl, rfl⟩
  exact h.sameBooks ((perform_framed b d).agenda ha.1) (sameBooks_perform b hd)
    (perform_counts ha.2).dropped

theorem replay (h : Accounted b held) {deeds : List Deed}
    (hd : ∀ d ∈ deeds, d.action.sparesBooks = true) : Accounted (b.replay deeds) held := by
  induction deeds generalizing b with
  | nil => exact h
  | cons d rest ih =>
    rw [List.forall_mem_cons] at hd
    exact ih (h.perform hd.1) hd.2

/-! ### Firing -/

theorem popDue (h : Accounted b []) (now : Nat) (m : Moment) :
    Accounted (b.perform ⟨m, .popDue now⟩) (b.agenda.popDue now).1 where
  aimed r hr := by
    rw [show (b.perform ⟨m, .popDue now⟩).agenda.rules = (b.agenda.popDue now).2.rules from rfl,
      Agenda.popDue_append] at hr
    exact h.aimed r hr
  pending := by
    have hp := (h.balanced.popDue now).pending
    rwa [List.append_nil] at hp
  dropped := h.dropped

theorem fire {r : ArmedRule} (hl : b.Linked) (h : Accounted b (r :: held)) (m : Moment) :
    Accounted (b.fire r m) held := by
  obtain ⟨q, hf⟩ :=
    Option.isSome_iff_exists.mp (h.aimed r (List.mem_append_left _ List.mem_cons_self))
  refine ⟨fun r' hr' => ?_, (h.balanced.fire hl m).pending, (fire_counts hf m).2.1.trans h.dropped⟩
  rw [firing?_fire hl]
  rw [fire_agenda] at hr'
  exact h.aimed r' (List.mem_cons_of_mem _ hr')

/-- The rules that were taken out fire one after another, each into the incarnation it aims at. -/
theorem fires (hl : b.Linked) (h : Accounted b held) (m : Moment) :
    Accounted (b.replay (held.map fun r => ⟨m, .fire r⟩)) [] ∧
      (b.replay (held.map fun r => ⟨m, .fire r⟩)).metrics.rulesFired =
        b.metrics.rulesFired + held.length := by
  induction held generalizing b with
  | nil => exact ⟨h, rfl⟩
  | cons r rest ih =>
    obtain ⟨q, hf⟩ :=
      Option.isSome_iff_exists.mp (h.aimed r (List.mem_append_left _ List.mem_cons_self))
    obtain ⟨ha, hc⟩ := ih (b := b.perform ⟨m, .fire r⟩) (hl.perform _) (h.fire hl m)
    refine ⟨ha, ?_⟩
    have hone : (b.perform ⟨m, .fire r⟩).metrics.rulesFired = b.metrics.rulesFired + 1 :=
      (fire_counts hf m).1
    rw [List.map_cons, replay_cons, hc, hone, List.length_cons]
    omega

theorem fireDeeds (hl : b.Linked) (h : Accounted b []) (now : Nat) (m : Moment) :
    Accounted (b.replay (b.fireDeeds now m)) [] ∧
      (b.replay (b.fireDeeds now m)).metrics.rulesFired =
        b.metrics.rulesFired + (b.agenda.popDue now).1.length :=
  (h.popDue now m).fires (hl.perform _) m

/-! ### Deleting a queue -/

theorem delete (h : Accounted b []) {id : String} {q : Queue}
    (hq : b.registry.find? id = some q) : Accounted ((b.retire id).2.cancelFor q.serial) [] := by
  have hr : (b.retire id).2 = b.updateQueue q.serial Queue.retire := by simp [retire, hq]
  refine ⟨fun r hm => ?_, ((h.balanced.retire id).cancelFor q.serial).pending, ?_⟩
  -- what is left aims at other incarnations, which are registered as before
  · rw [hr, show ((b.updateQueue q.serial Queue.retire).cancelFor q.serial).agenda =
      (b.agenda.cancel q.serial).2 from rfl, List.nil_append, Agenda.mem_cancel_iff] at hm
    obtain ⟨q', hq', hret⟩ := firing?_isSome_iff.mp (h.aimed r hm.1)
    refine firing?_isSome_iff.mpr ⟨q', ?_, hret⟩
    have hne : q.serial ≠ r.target := Ne.symm hm.2
    rw [hr]
    simp only [cancelFor, updateQueue, Registry.get?_update, if_neg hne]
    exact hq'
  · rw [hr]
    exact h.dropped

/-! ### Submitting -/

theorem arm (hl : b.Linked) (h : Accounted b []) (id : EventId) {event : NewEvent}
    {targets : List Nat} (ht : b.targets event = .ok targets) :
    Accounted (b.arm id event targets) [] := by
  have hreg : ∀ r, (b.firing? r).isSome = true →
      ((b.arm id event targets).firing? r).isSome = true := by
    intro r hr
    obtain ⟨q, hq, hret⟩ := firing?_isSome_iff.mp hr
    refine firing?_isSome_iff.mpr
      ⟨q.addPending (((expand event.rules targets).map (·.1)).count r.target), ?_, hret⟩
    rw [arm_get?, hq]
    rfl
  have htargets := fun t (hm : t ∈ targets) => registered_of_targets hl ht hm
  refine ⟨fun r hr => ?_, ?_, h.dropped⟩
  · rcases Agenda.mem_arm_iff.mp hr with hr | hr
    · exact hreg r (h.aimed r hr)
    · refine hreg r (firing?_isSome_iff.mpr ?_)
      obtain ⟨k, hk⟩ := List.mem_iff_getElem?.mp hr
      rw [Agenda.getElem?_number] at hk
      obtain ⟨o, ho, rfl⟩ := Option.map_eq_some_iff.mp hk
      exact htargets _ (mem_targets_of_expand (List.mem_of_getElem? ho))
  · exact (h.balanced.arm id event fun t hm => (htargets t hm).imp fun _ hq => hq.1).pending

theorem new {settings : BrokerSettings} (h : Broker.new settings = .ok b) : Accounted b [] := by
  refine ⟨?_, (Balanced.new h).pending, ?_⟩
  all_goals rw [Broker.new_eq h]
  · exact fun _ hr => absurd hr List.not_mem_nil
  · rfl

end Accounted

theorem rulesFired_new {settings : BrokerSettings} (h : Broker.new settings = .ok b) :
    b.metrics.rulesFired = 0 := by
  rw [Broker.new_eq h]
  rfl

theorem deliveredTo_new {settings : BrokerSettings} (h : Broker.new settings = .ok b) (t : Nat) :
    b.registry.deliveredTo t = 0 := by
  rw [Broker.new_eq h]
  simp [Registry.deliveredTo, Registry.get?, Registry.empty]

end Broker

namespace Session

/-! ## Steps and runs -/

theorem accounted_step {s : Session} {x : Step} (hx : x.isFacade = true) (hl : s.broker.Linked)
    (h : s.broker.Accounted []) :
    (s.broker.replay (s.callerDeeds x)).Accounted [] ∧
      (s.broker.replay (s.callerDeeds x)).metrics.rulesFired = s.broker.metrics.rulesFired +
        (firings (s.broker.journal (s.callerDeeds x))).length := by
  have hspared : (∀ d ∈ s.callerDeeds x, d.action.sparesBooks = true ∧ d.action.fires = false) →
      (s.broker.replay (s.callerDeeds x)).Accounted [] ∧
      (s.broker.replay (s.callerDeeds x)).metrics.rulesFired = s.broker.metrics.rulesFired +
        (firings (s.broker.journal (s.callerDeeds x))).length := by
    intro hd
    refine ⟨h.replay fun d hm => (hd d hm).1, ?_⟩
    rw [Broker.firings_eq_nil fun d hm => (hd d hm).2,
      (Broker.replay_counts fun d hm => (hd d hm).2).fired]
    rfl
  rcases s.callerDeeds_cases hx with ⟨now, rfl⟩ | ⟨id, rfl⟩ | ⟨event, rfl⟩ |
    ⟨queues, options, rfl⟩ | ⟨text, rfl⟩ | hp
  · obtain ⟨ha, hc⟩ := h.fireDeeds hl (now.getD s.moment.now) s.moment
    have hall : (s.broker.agenda.popDue (now.getD s.moment.now)).1.filter
        (fun r => (s.broker.firing? r).isSome) =
          (s.broker.agenda.popDue (now.getD s.moment.now)).1 :=
      List.filter_eq_self.mpr fun r hr => h.aimed r (Agenda.mem_of_mem_due hr)
    have hn := congrArg List.length
      (Broker.firings_fireDeeds hl (now.getD s.moment.now) s.moment)
    rw [hall, List.length_map] at hn
    refine ⟨ha, ?_⟩
    rw [callerDeeds, hc, hn]
  · cases hq : s.broker.registry.find? id with
    | none =>
      apply hspared
      simp [callerDeeds, Broker.deleteQueueDeeds, hq]
    | some q =>
      have hd : s.callerDeeds (.deleteQueue id) =
          [⟨s.moment, .retire id⟩, ⟨s.moment, .cancelFor q.serial⟩] := by
        simp only [callerDeeds, Broker.deleteQueueDeeds, hq]
      rw [hd, Broker.firings_eq_nil (by simp [Action.fires]),
        (Broker.replay_counts (by simp [Action.fires])).fired]
      exact ⟨h.delete hq, rfl⟩
  · cases ht : s.broker.targets event with
    | error e =>
      apply hspared
      simp [callerDeeds, Broker.submitDeeds, ht]
    | ok targets =>
      have hd : s.callerDeeds (.submit event) =
          [⟨s.moment, .arm s.fresh.event event targets⟩] := by
        simp only [callerDeeds, Broker.submitDeeds, ht]
      rw [hd, Broker.firings_eq_nil (by simp [Action.fires]),
        (Broker.replay_counts (by simp [Action.fires])).fired]
      exact ⟨h.arm hl s.fresh.event ht, rfl⟩
  · apply hspared
    simp [callerDeeds, Action.sparesBooks, Action.fires]
  · apply hspared
    intro d hm
    simp only [callerDeeds, List.mem_flatMap, List.mem_singleton] at hm
    obtain ⟨id, -, rfl⟩ := hm
    exact ⟨rfl, rfl⟩
  · apply hspared
    rintro ⟨m, action⟩ hm
    have hp := hp _ hm
    cases action <;> first | exact ⟨rfl, rfl⟩ | cases hp

/-- Over a run the books stay right, and what is counted as fired is what has fired. -/
theorem Quiet.accounted_run {s s' : Session} {steps : List Step} {answers : List Answer}
    (hq : s.Quiet) (hl : s.broker.Linked) (h : s.broker.Accounted [])
    (hf : ∀ x ∈ steps, x.isFacade = true) (hr : s.run steps = .ok (answers, s')) :
    s'.broker.Accounted [] ∧ s'.broker.metrics.rulesFired =
      s.broker.metrics.rulesFired + (firings (s.journal steps)).length := by
  have hp := Quiet.journal_induction
    (P := fun t past => t.broker.Accounted [] ∧
      t.broker.metrics.rulesFired = s.broker.metrics.rulesFired + (firings past).length)
    (fun {t t' x a past} _ hl hx _ hb hp => by
      obtain ⟨ha, hc⟩ := accounted_step hx hl hp.1
      rw [hb, hc, hp.2, firings_append, List.length_append]
      exact ⟨ha, Nat.add_assoc _ _ _⟩)
    hq hl hf hr [] ⟨h, rfl⟩
  simpa using hp

end Session

end EventBroker
