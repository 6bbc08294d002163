import EventBroker.Proofs.Agenda
import EventBroker.Proofs.Frames

/-! # How the agenda changes

A broker `Succeeds` another if no rule has come onto its agenda but those that were armed in
between, which have orders of their own. It is `Alert` after another if its driver is due to wake up
whenever there is such a rule. As long as the broker is not dropped every deed leads to a successor
(`perform_succeeds`), and as long as the driver takes no note of what was armed either, to an alert
one (`perform_alert`).
-/
set_option autoImplicit false

namespace EventBroker

namespace Action

/-- Whether an action drops the broker. -/
def isDrop : Action → Bool
  | .drop => true
  | _ => false

/-- Whether an action neither drops the broker nor is the driver's note that something was armed. -/
def isOrdinary : Action → Bool
  | .wake | .drop => false
  | _ => true

/-- Whether an action is part of an operation on queues, channels or events that fires nothing. -/
def isService : Action → Bool
  | .createQueue _ | .retire _ | .cancelFor _ | .arm _ _ _ => true
  | .createChannel _ _ _ | .getChannel _ | .dequeue _ | .close _ => true
  | _ => false

/-- Whether an action is part of firing what is due. -/
def isFiring : Action → Bool
  | .popDue _ | .fire _ => true
  | _ => false

/-- Whether an action is done for a subscriber. -/
def isStreaming : Action → Bool
  | .subscribe _ | .unsubscribe _ | .receive _ | .receiveUpTo _ _ => true
  | _ => false

theorem isOrdinary_of_isService {action : Action} (h : action.isService = true) :
    action.isOrdinary = true := by
  cases action with
  | wake | drop => cases h
  | _ => rfl

theorem not_firing_of_isService {action : Action} (h : action.isService = true) :
    action.isFiring = false := by
  cases action with
  | popDue | fire => cases h
  | _ => rfl

theorem not_streaming_of_isService {action : Action} (h : action.isService = true) :
    action.isStreaming = false ∧ action.isDrop = false := by
  cases action with
  | subscribe | unsubscribe | receive | receiveUpTo | drop => cases h
  | _ => exact ⟨rfl, rfl⟩

theorem isDrop_of_isOrdinary {action : Action} (h : action.isOrdinary = true) :
    action.isDrop = false := by
  cases action with
  | drop => cases h
  | _ => rfl

end Action

namespace Broker

structure Succeeds (b b' : Broker) : Prop where
  ordered : b.agenda.Ordered → b'.agenda.Ordered
  nextOrder : b.agenda.nextOrder ≤ b'.agenda.nextOrder
  rules : ∀ r ∈ b'.agenda.rules,
    r ∈ b.agenda.rules ∨ (b.agenda.nextOrder ≤ r.order ∧ r.order < b'.agenda.nextOrder)

structure Alert (b b' : Broker) : Prop where
  wakeup : b.wakeup = true → b'.wakeup = true
  rules : ∀ r ∈ b'.agenda.rules, r ∈ b.agenda.rules ∨ b'.wakeup = true

variable {b b' b'' : Broker}

namespace Succeeds

theorem of_agenda (h : b'.agenda = b.agenda) : Succeeds b b' := by
  refine ⟨fun ho => ?_, ?_, fun r hr => ?_⟩
  · rwa [h]
  · rw [h]
  · rw [h] at hr
    exact .inl hr

theorem refl (b : Broker) : Succeeds b b := of_agenda rfl

theorem trans (h : Succeeds b b') (h' : Succeeds b' b'') : Succeeds b b'' where
  ordered := h'.ordered ∘ h.ordered
  nextOrder := h.nextOrder.trans h'.nextOrder
  rules := by
    intro r hr
    rcases h'.rules r hr with hr | ⟨hlo, hhi⟩
    · refine (h.rules r hr).imp_right fun ⟨hlo, hhi⟩ => ⟨hlo, ?_⟩
      exact Nat.lt_of_lt_of_le hhi h'.nextOrder
    · exact .inr ⟨h.nextOrder.trans hlo, hhi⟩

/-- A rule that was armed earlier has stayed on the agenda all the time. -/
theorem mem_of_order_lt (h : Succeeds b b') {r : ArmedRule} (hr : r ∈ b'.agenda.rules)
    (ho : r.order < b.agenda.nextOrder) : r ∈ b.agenda.rules := by
  rcases h.rules r hr with hr | ⟨hlo, -⟩
  · exact hr
  · omega

end Succeeds

namespace Alert

theorem of_fields (ha : b'.agenda.rules ⊆ b.agenda.rules) (hw : b'.wakeup = b.wakeup) :
    Alert b b' :=
  ⟨fun h => hw.trans h, fun _ hr => .inl (ha hr)⟩

theorem trans (h : Alert b b') (h' : Alert b' b'') : Alert b b'' where
  wakeup := h'.wakeup ∘ h.wakeup
  rules := by
    intro r hr
    rcases h'.rules r hr with hr | hw
    · exact (h.rules r hr).imp_right h'.wakeup
    · exact .inr hw

end Alert

/-! ## Deeds -/

theorem perform_succeeds (b : Broker) {d : Deed} (hd : d.action.isDrop = false) :
    Succeeds b (b.perform d) := by
  obtain ⟨m, action⟩ := d
  by_cases hs : action.sparesAgenda = true
  · exact .of_agenda ((perform_framed b ⟨m, action⟩).agenda hs)
  cases action with
  | cancelFor target =>
    exact ⟨fun h => h.cancel target, Nat.le_refl _,
      fun r hr => .inl (Agenda.mem_cancel_iff.mp hr).1⟩
  | arm id event targets =>
    refine ⟨fun h => h.arm _ _, Nat.le_add_right _ _, fun r hr => ?_⟩
    refine (Agenda.mem_arm_iff.mp hr).imp_right fun hr => ?_
    exact Agenda.order_of_mem_number hr
  | popDue now =>
    exact ⟨fun h => h.popDue now, Nat.le_refl _, fun r hr => .inl (Agenda.mem_of_mem_left hr)⟩
  | drop => cases hd
  | _ => exact absurd rfl hs

theorem replay_succeeds (b : Broker) {deeds : List Deed}
    (hd : ∀ d ∈ deeds, d.action.isDrop = false) : Succeeds b (b.replay deeds) := by
  induction deeds generalizing b with
  | nil => exact .refl b
  | cons d rest ih =>
    rw [List.forall_mem_cons] at hd
    exact (b.perform_succeeds hd.1).trans (ih (b.perform d) hd.2)

theorem perform_alert (b : Broker) {d : Deed} (hd : d.action.isOrdinary = true) :
    Alert b (b.perform d) := by
  obtain ⟨m, action⟩ := d
  have hf := perform_framed b ⟨m, action⟩
  cases action with
  | arm id event targets => exact ⟨fun _ => rfl, fun _ _ => .inr rfl⟩
  | cancelFor target =>
    exact .of_fields (fun r hr => (Agenda.mem_cancel_iff.mp hr).1) (hf.wakeup rfl)
  | popDue now => exact .of_fields (fun r hr => Agenda.mem_of_mem_left hr) (hf.wakeup rfl)
  | wake | drop => cases hd
  | _ => exact .of_fields (fun r hr => by rwa [hf.agenda rfl] at hr) (hf.wakeup rfl)

theorem replay_alert (b : Broker) {deeds : List Deed}
    (hd : ∀ d ∈ deeds, d.action.isOrdinary = true) : Alert b (b.replay deeds) := by
  induction deeds generalizing b with
  | nil => exact .of_fields (fun _ h => h) rfl
  | cons d rest ih =>
    rw [List.forall_mem_cons] at hd
    exact (b.perform_alert hd.1).trans (ih (b.perform d) hd.2)

/-! ## Operations by what they do -/

variable {d : Deed} {m : Moment}

theorem fireDeeds_firing {now : Nat} (hd : d ∈ b.fireDeeds now m) :
    d.action.isFiring = true := by
  rcases List.mem_cons.mp hd with rfl | hd
  · rfl
  · obtain ⟨r, -, rfl⟩ := List.mem_map.mp hd
    rfl

theorem deleteQueueDeeds_service {id : String} (hd : d ∈ b.deleteQueueDeeds id m) :
    d.action.isService = true := by
  unfold deleteQueueDeeds at hd
  split at hd
  · simp only [List.mem_cons, List.not_mem_nil, or_false] at hd
    rcases hd with rfl | rfl <;> rfl
  · cases hd

theorem submitDeeds_service {id : EventId} {event : NewEvent}
    (hd : d ∈ b.submitDeeds id event m) : d.action.isService = true := by
  unfold submitDeeds at hd
  split at hd
  · rw [List.mem_singleton] at hd
    subst hd
    rfl
  · cases hd

theorem closeDeeds_service {id : ChannelId} (hd : d ∈ b.closeDeeds id m) :
    d.action.isService = true := by
  unfold closeDeeds at hd
  split at hd
  · rw [List.mem_singleton] at hd
    subst hd
    rfl
  · cases hd

theorem reapDeeds_service {timeout : Nat} (hd : d ∈ b.reapDeeds timeout m) :
    d.action.isService = true := by
  obtain ⟨c, -, rfl⟩ := List.mem_map.mp hd
  rfl

end Broker

end EventBroker
