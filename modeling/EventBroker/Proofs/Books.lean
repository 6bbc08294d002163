import EventBroker.Proofs.Rules

/-! # What is pending

Every incarnation counts the rules that are pending for it: those that are armed and those that have
been taken off the agenda and have not had their turn. `Balanced` says that the count is right, with
the rules in hand given; it holds of retired incarnations too, and every deed on the books keeps it.
`SameBooks` is what all other deeds keep.
-/
set_option autoImplicit false

namespace EventBroker

/-- Whether an action leaves alone what is armed, what is pending and who is registered. -/
def Action.sparesBooks : Action → Bool
  | .retire _ | .cancelFor _ | .arm _ _ _ | .popDue _ | .fire _ | .drop => false
  | _ => true

namespace Broker

variable {b b' : Broker}

/-! ## What only firing counts -/

/-- The same rules have fired or been dropped, and the same events gone to subscribers or been lost
for them. -/
structure SameCounts (metrics metrics' : Metrics) : Prop where
  fired : metrics'.rulesFired = metrics.rulesFired
  dropped : metrics'.rulesDropped = metrics.rulesDropped
  pushed : metrics'.streamPushed = metrics.streamPushed
  lost : metrics'.streamDropped = metrics.streamDropped

namespace SameCounts

variable {metrics metrics' metrics'' : Metrics}

theorem refl (metrics : Metrics) : SameCounts metrics metrics := ⟨rfl, rfl, rfl, rfl⟩

theorem trans (h : SameCounts metrics metrics') (h' : SameCounts metrics' metrics'') :
    SameCounts metrics metrics'' :=
  ⟨h'.fired.trans h.fired, h'.dropped.trans h.dropped, h'.pushed.trans h.pushed,
    h'.lost.trans h.lost⟩

theorem release (metrics : Metrics) (n : Nat) : SameCounts metrics (metrics.release n) := by
  unfold Metrics.release
  split <;> exact ⟨rfl, rfl, rfl, rfl⟩

theorem dequeue (metrics : Metrics) (trigger : FlushTrigger) (n : Nat) :
    SameCounts metrics (metrics.dequeue trigger n) := by
  have hr := release metrics n
  unfold Metrics.dequeue
  split
  · exact refl metrics
  · cases trigger <;> exact ⟨hr.fired, hr.dropped, hr.pushed, hr.lost⟩

end SameCounts

theorem foldl_offerTo_counts (m : Moment) (event : DeliveredEvent) (watchers : List Nat)
    (b : Broker) : SameCounts b.metrics (watchers.foldl (offerTo m event) b).metrics := by
  induction watchers generalizing b with
  | nil => exact .refl _
  | cons w rest ih =>
    refine SameCounts.trans ?_ (ih _)
    unfold offerTo
    split
    · exact .refl _
    · split <;> exact ⟨rfl, rfl, rfl, rfl⟩

theorem closeChannel_counts (b : Broker) (c : Channel) :
    SameCounts b.metrics (b.closeChannel c).metrics := by
  rw [closeChannel, foldl_updateQueue]
  exact .release b.metrics c.events.size

theorem foldl_closeChannel_counts (cs : List Channel) (b : Broker) :
    SameCounts b.metrics (cs.foldl closeChannel b).metrics := by
  induction cs generalizing b with
  | nil => exact .refl _
  | cons c rest ih => exact (closeChannel_counts b c).trans (ih _)

/-- Only firing counts as firing. -/
theorem perform_counts {d : Deed} (hf : d.action.fires = false) :
    SameCounts b.metrics (b.perform d).metrics := by
  obtain ⟨m, action⟩ := d
  cases action with
  | createQueue id =>
    simp only [perform]
    rw [createQueue_eq]
    exact .refl _
  | retire id =>
    simp only [perform]
    rw [retire_eq]
    exact .refl _
  | createChannel id queues options =>
    simp only [perform]
    rw [createChannel_eq]
    exact .refl _
  | getChannel id =>
    simp only [perform]
    rw [getChannel_eq]
    exact .refl _
  | dequeue id =>
    simp only [perform, Broker.dequeue]
    split
    · exact .refl _
    · exact .dequeue _ _ _
  | close serial =>
    simp only [perform]
    split
    · exact closeChannel_counts b _
    · exact .refl _
  | subscribe category =>
    simp only [perform]
    split
    · next hs =>
      rw [subscribe_eq hs]
      exact ⟨rfl, rfl, rfl, rfl⟩
    · exact .refl _
  | unsubscribe s =>
    simp only [perform]
    split
    · next b' hs =>
      obtain ⟨⟨registered, gateway⟩, -, rfl⟩ := Session.map_eq_ok_iff.mp hs
      cases registered <;> exact ⟨rfl, rfl, rfl, rfl⟩
    · exact .refl _
  | drop => exact foldl_closeChannel_counts b.channels b
  | fire rule => cases hf
  | arm => exact ⟨rfl, rfl, rfl, rfl⟩
  | cancelFor | popDue | receive | receiveUpTo | wake => exact .refl _

theorem replay_counts {deeds : List Deed} (h : ∀ d ∈ deeds, d.action.fires = false) :
    SameCounts b.metrics (b.replay deeds).metrics := by
  induction deeds generalizing b with
  | nil => exact .refl _
  | cons d rest ih =>
    rw [List.forall_mem_cons] at h
    exact (perform_counts h.1).trans (ih h.2)

/-- What a firing adds to the counts: the rule, and how many subscribers its event reached and
missed. -/
theorem fire_counts {rule : ArmedRule} {q : Queue} (h : b.firing? rule = some q) (m : Moment) :
    let tally := (b.gateway.publish (delivery rule q.id m.now).category (delivery rule q.id m.now)).1
    (b.fire rule m).metrics.rulesFired = b.metrics.rulesFired + 1 ∧
      (b.fire rule m).metrics.rulesDropped = b.metrics.rulesDropped ∧
      (b.fire rule m).metrics.streamPushed = b.metrics.streamPushed + tally.taken ∧
      (b.fire rule m).metrics.streamDropped = b.metrics.streamDropped + tally.lost := by
  have hc := foldl_offerTo_counts m (delivery rule q.id m.now) q.published
    ((b.updateQueue rule.target (·.subPending 1)).updateQueue (q.subPending 1).serial
      fun q => { q with delivered := q.delivered + 1 })
  have hg : (q.published.foldl (offerTo m (delivery rule q.id m.now))
      ((b.updateQueue rule.target (·.subPending 1)).updateQueue (q.subPending 1).serial
        fun q => { q with delivered := q.delivered + 1 })).gateway = b.gateway := by
    rw [foldl_offerTo_eq]
    rfl
  rw [fire_of_firing? h, ← hg]
  exact ⟨congrArg (· + 1) hc.fired, hc.dropped, congrArg (· + _) hc.pushed,
    congrArg (· + _) hc.lost⟩

/-- A rule that goes nowhere reaches nobody. -/
theorem fire_of_not_firing?_counts {rule : ArmedRule} (h : b.firing? rule = none) (m : Moment) :
    (b.fire rule m).metrics.streamPushed = b.metrics.streamPushed ∧
      (b.fire rule m).metrics.streamDropped = b.metrics.streamDropped := by
  rw [fire_metrics_of_not_firing? h]
  exact ⟨rfl, rfl⟩

/-! ## Deeds that leave the books alone -/

/-- The incarnations of the first registry have the same rules pending in the second, and are
registered there as before; for a new one nothing is pending. -/
structure SameBooks (r r' : Registry) : Prop where
  kept : ∀ t q, r.get? t = some q →
    ∃ q', r'.get? t = some q' ∧ q'.pending = q.pending ∧ q'.retired = q.retired
  begun : ∀ t q', r.get? t = none → r'.get? t = some q' → q'.pending = 0

namespace SameBooks

theorem refl (r : Registry) : SameBooks r r :=
  ⟨fun _ q hq => ⟨q, hq, rfl, rfl⟩, fun t q' hn hq' => by rw [hn] at hq'; cases hq'⟩

theorem foldl_update {f : Queue → Queue}
    (hf : ∀ q, (f q).pending = q.pending ∧ (f q).retired = q.retired) (targets : List Nat)
    (r : Registry) : SameBooks r (targets.foldl (fun r s => r.update s f) r) where
  kept t q hq := by
    have hi : ∀ n : Nat, (f^[n] q).pending = q.pending ∧ (f^[n] q).retired = q.retired := by
      intro n
      induction n with
      | zero => exact ⟨rfl, rfl⟩
      | succ n ih =>
        rw [Function.iterate_succ_apply']
        exact ⟨(hf _).1.trans ih.1, (hf _).2.trans ih.2⟩
    rw [Registry.get?_foldl_update, hq]
    exact ⟨_, rfl, hi _⟩
  begun t q' hn hq' := by
    rw [Registry.get?_foldl_update, hn] at hq'
    cases hq'

theorem append (r : Registry) (id : String) : SameBooks r (r.append id) where
  kept t q hq := by
    have := Registry.lt_of_get? hq
    rw [Registry.get?_append, if_neg (by omega), hq]
    exact ⟨q, rfl, rfl, rfl⟩
  begun t q' hn hq' := by
    rw [Registry.get?_append] at hq'
    split at hq'
    · cases hq'
      rfl
    · rw [hn] at hq'
      cases hq'

end SameBooks

theorem sameBooks_closeChannel (b : Broker) (c : Channel) :
    SameBooks b.registry (b.closeChannel c).registry := by
  rw [closeChannel_registry]
  refine .foldl_update (fun q => ?_) _ _
  unfold Queue.detach
  split <;> exact ⟨rfl, rfl⟩

theorem sameBooks_perform (b : Broker) {d : Deed} (h : d.action.sparesBooks = true) :
    SameBooks b.registry (b.perform d).registry := by
  obtain ⟨m, action⟩ := d
  cases action with
  | createQueue id =>
    simp only [perform, createQueue]
    split
    · exact .refl _
    · split
      · exact .refl _
      · exact .append _ _
  | createChannel id queues options =>
    simp only [perform]
    rcases b.createChannel_cases id queues options m with ⟨e, he⟩ | ⟨_, ts, -, -, -, he⟩
    · rw [he]
      exact .refl _
    · rw [he]
      exact .foldl_update (f := (·.attach b.nextChannel)) (fun _ => ⟨rfl, rfl⟩) ts b.registry
  | getChannel id =>
    simp only [perform]
    rw [getChannel_eq]
    exact .refl _
  | dequeue id =>
    simp only [perform]
    rw [dequeue_eq]
    exact .refl _
  | close serial =>
    simp only [perform]
    split
    · exact sameBooks_closeChannel b _
    · exact .refl _
  | subscribe category =>
    simp only [perform]
    split
    · next hs =>
      rw [subscribe_eq hs]
      exact .refl _
    · exact .refl _
  | unsubscribe s =>
    simp only [perform]
    split
    · next hs =>
      rw [unsubscribe_eq hs]
      exact .refl _
    · exact .refl _
  | receive | receiveUpTo | wake => exact .refl _
  | retire | cancelFor | arm | popDue | fire | drop => cases h

theorem firing?_isSome_iff {rule : ArmedRule} :
    (b.firing? rule).isSome = true ↔
      ∃ q, b.registry.get? rule.target = some q ∧ q.retired = false := by
  simp only [Option.isSome_iff_exists, firing?_eq_some_iff]

/-! ## Submitting -/

theorem resolve_of_targets {event : NewEvent} {targets : List Nat}
    (h : b.targets event = .ok targets) :
    b.registry.resolve (event.rules.map (·.queue)) = .ok targets := by
  unfold Broker.targets at h
  split at h
  · cases h
  split at h
  · cases h
  split at h
  · cases h
  · exact h

theorem mem_targets_of_expand {rules : List ScheduleRule} {targets : List Nat} {o : Nat × Nat}
    (h : o ∈ expand rules targets) : o.1 ∈ targets := by
  simp only [expand, List.mem_flatMap, List.mem_map] at h
  obtain ⟨⟨rule, target⟩, hz, t, -, rfl⟩ := h
  exact (List.of_mem_zip hz).2

/-- An accepted event aims at registered incarnations only. -/
theorem registered_of_targets (hl : b.Linked) {event : NewEvent} {targets : List Nat}
    (h : b.targets event = .ok targets) {t : Nat} (ht : t ∈ targets) :
    ∃ q, b.registry.get? t = some q ∧ q.retired = false := by
  obtain ⟨id, -, q, hq, rfl⟩ := Registry.mem_resolve (resolve_of_targets h) ht
  exact ⟨q, hl.numbered.get?_of_find? hq, (Registry.find?_spec hq).2.1⟩

/-! ## Pending rules -/

/-- Every incarnation has pending just the rules that aim at it, those on the agenda and those in
hand, and every rule aims at an incarnation. -/
structure Balanced (b : Broker) (held : List ArmedRule) : Prop where
  recorded : ∀ r ∈ held ++ b.agenda.rules, ∃ q, b.registry.get? r.target = some q
  pending : ∀ t q, b.registry.get? t = some q →
    q.pending = Agenda.aimedAt (held ++ b.agenda.rules) t

namespace Balanced

variable {held held' : List ArmedRule}

/-- Nothing aims at an incarnation that is not on record. -/
theorem aimedAt_eq_zero (h : Balanced b held) {t : Nat} (hn : b.registry.get? t = none) :
    Agenda.aimedAt (held ++ b.agenda.rules) t = 0 := by
  rw [Agenda.aimedAt, List.countP_eq_zero]
  intro r hr ht
  obtain ⟨q, hq⟩ := h.recorded r hr
  rw [beq_iff_eq.mp ht, hn] at hq
  cases hq

/-- In which order the rules in hand are listed does not matter. -/
theorem perm (h : Balanced b held) (hp : held.Perm held') : Balanced b held' where
  recorded r hr := h.recorded r ((hp.append_right b.agenda.rules).mem_iff.mpr hr)
  pending t q hq := (h.pending t q hq).trans ((hp.append_right b.agenda.rules).countP_eq _)

theorem sameBooks (h : Balanced b held) (ha : b'.agenda = b.agenda)
    (hs : SameBooks b.registry b'.registry) : Balanced b' held where
  recorded r hr := by
    rw [ha] at hr
    obtain ⟨q, hq⟩ := h.recorded r hr
    obtain ⟨q', hq', -, -⟩ := hs.kept _ q hq
    exact ⟨q', hq'⟩
  pending t q' hq' := by
    rw [ha]
    cases hq : b.registry.get? t with
    | none => rw [h.aimedAt_eq_zero hq, hs.begun t q' hq hq']
    | some q =>
      obtain ⟨q'', hq'', hp, -⟩ := hs.kept t q hq
      rw [hq'] at hq''
      cases hq''
      rw [hp, h.pending t q hq]

theorem perform (h : Balanced b held) {d : Deed} (hd : d.action.sparesBooks = true) :
    Balanced (b.perform d) held := by
  have ha : d.action.sparesAgenda = true := by
    obtain ⟨m, action⟩ := d
    cases action <;> first | cases hd; done | rfl
  exact h.sameBooks ((perform_framed b d).agenda ha) (sameBooks_perform b hd)

theorem popDue (h : Balanced b held) (now : Nat) :
    Balanced (b.popDue now).2 ((b.agenda.popDue now).1 ++ held) := by
  -- the same rules, taken from the front of the agenda into the hand
  have hp : ((b.agenda.popDue now).1 ++ held ++ (b.agenda.popDue now).2.rules).Perm
      (held ++ b.agenda.rules) := by
    rw [← Agenda.popDue_append b.agenda now, ← List.append_assoc]
    exact List.perm_append_comm.append_right _
  exact ⟨fun r hr => h.recorded r (hp.mem_iff.mp hr),
    fun t q hq => (h.pending t q hq).trans (hp.countP_eq _).symm⟩

theorem fire {r : ArmedRule} (hl : b.Linked) (h : Balanced b (r :: held)) (m : Moment) :
    Balanced (b.fire r m) held where
  recorded r' hr' := by
    rw [fire_agenda] at hr'
    obtain ⟨q, hq⟩ := h.recorded r' (List.mem_cons_of_mem _ hr')
    rw [fire_get? hl.numbered, hq]
    split <;> exact ⟨_, rfl⟩
  pending t q' hq' := by
    rw [fire_agenda]
    rw [fire_get? hl.numbered] at hq'
    split at hq'
    · next ht =>
      obtain ⟨q₀, hq₀, rfl⟩ := Option.map_eq_some_iff.mp hq'
      have hp := h.pending t q₀ hq₀
      rw [List.cons_append, Agenda.aimedAt_cons, if_pos ht] at hp
      simp only [settled, hp, Nat.add_sub_cancel]
    · next ht =>
      have hp := h.pending t q' hq'
      rwa [List.cons_append, Agenda.aimedAt_cons, if_neg ht] at hp

theorem retire (h : Balanced b held) (id : String) : Balanced (b.retire id).2 held := by
  unfold Broker.retire
  split
  · next q _ =>
    refine ⟨fun r hr => ?_, fun t q' hq' => ?_⟩
    · obtain ⟨q₀, hq₀⟩ := h.recorded r hr
      simp only [updateQueue, Registry.get?_update, hq₀]
      split <;> exact ⟨_, rfl⟩
    · simp only [updateQueue, Registry.get?_update] at hq'
      split at hq'
      · obtain ⟨q₀, hq₀, rfl⟩ := Option.map_eq_some_iff.mp hq'
        exact h.pending t q₀ hq₀
      · exact h.pending t q' hq'
  · exact h

/-- What is subtracted is what comes off the agenda; the rules in hand stay pending. -/
theorem cancelFor (h : Balanced b held) (target : Nat) : Balanced (b.cancelFor target) held := by
  have hget : ∀ t, (b.cancelFor target).registry.get? t = if target = t then (b.registry.get? t).map
      (·.subPending (Agenda.aimedAt b.agenda.rules target)) else b.registry.get? t := by
    intro t
    simp only [Broker.cancelFor, updateQueue, Registry.get?_update, Agenda.cancel_count]
  have hagenda : (b.cancelFor target).agenda = (b.agenda.cancel target).2 := rfl
  refine ⟨fun r hr => ?_, fun t q' hq' => ?_⟩
  · have hmem : r ∈ held ++ b.agenda.rules := by
      rcases List.mem_append.mp hr with hr | hr
      · exact List.mem_append_left _ hr
      · exact List.mem_append_right _ (Agenda.mem_cancel_iff.mp hr).1
    obtain ⟨q, hq⟩ := h.recorded r hmem
    rw [hget, hq]
    split <;> exact ⟨_, rfl⟩
  · rw [hagenda, Agenda.aimedAt_append, Agenda.aimedAt_cancel]
    rw [hget] at hq'
    by_cases ht : target = t
    · subst ht
      rw [if_pos rfl] at hq'
      obtain ⟨q, hq, rfl⟩ := Option.map_eq_some_iff.mp hq'
      have hp := h.pending target q hq
      rw [Agenda.aimedAt_append] at hp
      rw [if_pos rfl, Queue.subPending]
      simp only [hp]
      omega
    · rw [if_neg ht] at hq'
      rw [if_neg fun he => ht he.symm, ← Agenda.aimedAt_append]
      exact h.pending t q' hq'

theorem arm (h : Balanced b held) (id : EventId) (event : NewEvent) {targets : List Nat}
    (ht : ∀ t ∈ targets, ∃ q, b.registry.get? t = some q) :
    Balanced (b.arm id event targets) held := by
  have hget := arm_get? b id event targets
  have hp : (held ++ (b.arm id event targets).agenda.rules).Perm (held ++ b.agenda.rules ++
      Agenda.number ⟨id, event.data, event.category⟩ b.agenda.nextOrder
        (expand event.rules targets)) := by
    rw [List.append_assoc]
    exact (Agenda.arm_perm b.agenda ⟨id, event.data, event.category⟩
      (expand event.rules targets)).append_left held
  refine ⟨fun r hr => ?_, fun t q' hq' => ?_⟩
  · have hq : ∃ q, b.registry.get? r.target = some q := by
      rcases List.mem_append.mp (hp.mem_iff.mp hr) with hr | hr
      · exact h.recorded r hr
      · obtain ⟨k, hk⟩ := List.mem_iff_getElem?.mp hr
        rw [Agenda.getElem?_number] at hk
        obtain ⟨o, ho, rfl⟩ := Option.map_eq_some_iff.mp hk
        exact ht _ (mem_targets_of_expand (List.mem_of_getElem? ho))
    obtain ⟨q, hq⟩ := hq
    rw [hget, hq]
    exact ⟨_, rfl⟩
  · rw [hget] at hq'
    obtain ⟨q, hq, rfl⟩ := Option.map_eq_some_iff.mp hq'
    rw [Agenda.aimedAt, hp.countP_eq, ← Agenda.aimedAt, Agenda.aimedAt_append,
      Agenda.aimedAt_number, ← h.pending t q hq]
    rfl

theorem new {settings : BrokerSettings} (h : Broker.new settings = .ok b) : Balanced b [] := by
  rw [Broker.new_eq h]
  refine ⟨fun _ hr => absurd hr List.not_mem_nil, fun t q hq => ?_⟩
  simp [Registry.get?, Registry.empty] at hq

end Balanced

end Broker

end EventBroker
