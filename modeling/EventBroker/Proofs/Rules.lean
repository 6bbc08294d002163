import EventBroker.Proofs.Agenda
import EventBroker.Proofs.Facade
import EventBroker.Proofs.Incarnations

/-! # Armed rules and steps

Three steps change the agenda: firing takes off what is due, deleting a queue takes off what aims at
it, and submitting an event puts its occurrences on. No other step on the broker fires or arms
anything (`callerDeeds_spare`). Hence no rule is spent twice: the orders of the rules that have
fired and of those that are armed are all different (`Spent`, `Quiet.spent_run`).
-/
set_option autoImplicit false

namespace EventBroker

/-- Whether an action fires a rule. -/
def Action.fires : Action → Bool
  | .fire _ => true
  | _ => false

namespace Broker

/-! ## Lists of deeds -/

theorem firings_eq_nil {b : Broker} {deeds : List Deed}
    (h : ∀ d ∈ deeds, d.action.fires = false) : firings (b.journal deeds) = [] := by
  induction deeds generalizing b with
  | nil => rfl
  | cons d rest ih =>
    rw [List.forall_mem_cons] at h
    rw [show b.journal (d :: rest) = [(b, d)] ++ (b.perform d).journal rest from rfl,
      firings_append, ih h.2, List.append_nil]
    obtain ⟨m, action⟩ := d
    cases action with
    | fire rule => cases h.1
    | _ => rfl

/-! ## Firing what is due -/

theorem firing?_fire {b : Broker} (h : b.Linked) (rule r : ArmedRule) (m : Moment) :
    ((b.fire rule m).firing? r).isSome = (b.firing? r).isSome := by
  simp only [firing?, fire_get? h.numbered]
  split
  · cases b.registry.get? r.target with
    | none => rfl
    | some q =>
      have hs : (settled q).retired = q.retired := rfl
      cases hr : q.retired <;> simp [Option.filter, hs, hr]
  · rfl

theorem firings_fires {b : Broker} (h : b.Linked) (m : Moment) (rules : List ArmedRule) :
    (firings (b.journal (rules.map fun r => ⟨m, .fire r⟩))).map (·.rule) =
      rules.filter fun r => (b.firing? r).isSome := by
  induction rules generalizing b with
  | nil => rfl
  | cons r rest ih =>
    have hl : (b.perform ⟨m, .fire r⟩).Linked := h.perform _
    have hr := ih hl
    simp only [show ∀ r', ((b.perform ⟨m, .fire r⟩).firing? r').isSome = (b.firing? r').isSome from
      fun r' => firing?_fire h r r' m] at hr
    rw [List.map_cons, show ∀ ds, b.journal (⟨m, .fire r⟩ :: ds) =
        [(b, ⟨m, .fire r⟩)] ++ (b.perform ⟨m, .fire r⟩).journal ds from fun _ => rfl,
      firings_append, List.map_append, hr, List.filter_cons]
    cases hf : b.firing? r <;> simp [firings, Firing.ofDeed?, hf]

/-- What fires is what is due and aims at a registered incarnation, in firing order. -/
theorem firings_fireDeeds {b : Broker} (h : b.Linked) (now : Nat) (m : Moment) :
    (firings (b.journal (b.fireDeeds now m))).map (·.rule) =
      (b.agenda.popDue now).1.filter fun r => (b.firing? r).isSome := by
  have hl : (b.perform ⟨m, .popDue now⟩).Linked := h.perform _
  exact firings_fires hl m (b.agenda.popDue now).1

end Broker

namespace Session

/-! ## Steps that touch no rule -/

theorem callerDeeds_spare (s : Session) {x : Step} (hx : x.isFacade = true)
    (hf : ∀ now, x ≠ .fire now) (hd : ∀ id, x ≠ .deleteQueue id)
    (hs : ∀ event, x ≠ .submit event) {d : Deed} (hm : d ∈ s.callerDeeds x) :
    d.action.sparesAgenda = true ∧ d.action.fires = false := by
  obtain ⟨m, action⟩ := d
  rcases s.callerDeeds_cases hx with ⟨now, rfl⟩ | ⟨id, rfl⟩ | ⟨event, rfl⟩ |
    ⟨queues, options, rfl⟩ | ⟨text, rfl⟩ | hp
  · exact absurd rfl (hf now)
  · exact absurd rfl (hd id)
  · exact absurd rfl (hs event)
  · rw [callerDeeds, List.mem_singleton] at hm
    cases hm
    exact ⟨rfl, rfl⟩
  · simp only [callerDeeds, List.mem_flatMap, List.mem_singleton] at hm
    obtain ⟨id, -, he⟩ := hm
    cases he
    exact ⟨rfl, rfl⟩
  · have hp := hp _ hm
    cases action <;> first | exact ⟨rfl, rfl⟩ | cases hp

/-! ## Runs without tasks -/

/-- What every step on the broker itself keeps, such a run keeps. The property may speak of the
journal so far. -/
theorem Quiet.journal_induction {P : Session → List (Broker × Deed) → Prop}
    (step : ∀ {s s' : Session} {x : Step} {a : Answer} {past : List (Broker × Deed)}, s.Quiet →
      s.broker.Linked → x.isFacade = true → s.act x = .ok (a, s') →
      s'.broker = s.broker.replay (s.callerDeeds x) → P s past →
      P s' (past ++ s.broker.journal (s.callerDeeds x)))
    {s s' : Session} {steps : List Step} {answers : List Answer}
    (hq : s.Quiet) (h : s.broker.Linked) (hf : ∀ x ∈ steps, x.isFacade = true)
    (hr : s.run steps = .ok (answers, s')) (past : List (Broker × Deed)) (hp : P s past) :
    P s' (past ++ s.journal steps) := by
  induction steps generalizing s answers past with
  | nil =>
    cases hr
    simpa [journal, deeds, Broker.journal] using hp
  | cons x rest ih =>
    rw [List.forall_mem_cons] at hf
    obtain ⟨a, mid, later, hx, hr', -⟩ := run_cons_eq_ok_iff.mp hr
    have hd := hq.stepDeeds hf.1 hx
    have hb := step_replays h hx
    rw [hd] at hb
    have hone := step hq h hf.1 ((hq.step_iff hf.1).mp hx) hb hp
    have hrest := ih (hq.step hf.1 hx).1 (linked_step h hx) hf.2 hr' _ hone
    have hj : s.journal (x :: rest) = s.broker.journal (s.callerDeeds x) ++ mid.journal rest := by
      simp only [journal, deeds, hx, hd, Broker.journal_append, ← hb]
    rwa [hj, ← List.append_assoc]

/-! ## No rule is spent twice -/

/-- The orders of what has fired and of what is armed are all different, and all have been given. -/
structure Spent (b : Broker) (fired : List Nat) : Prop where
  ordered : b.agenda.Ordered
  nodup : (fired ++ b.agenda.rules.map (·.order)).Nodup
  below : ∀ o ∈ fired, o < b.agenda.nextOrder

theorem Spent.start {b : Broker} (h : b.agenda.Ordered) : Spent b [] :=
  ⟨h, h.distinct, fun _ ho => absurd ho List.not_mem_nil⟩

theorem Spent.new {settings : BrokerSettings} {b : Broker} (h : Broker.new settings = .ok b) :
    Spent b [] := by
  rw [Broker.new_eq h]
  exact .start .empty

variable {b b' : Broker} {fired : List Nat}

theorem Spent.of_agenda (h : Spent b fired) (ha : b'.agenda = b.agenda) : Spent b' fired :=
  ⟨ha ▸ h.ordered, ha ▸ h.nodup, ha ▸ h.below⟩

/-- What is popped is spent, whether or not it has its turn. -/
theorem Spent.pop (h : Spent b fired) (now : Nat) :
    Spent (b.popDue now).2 (fired ++ (b.agenda.popDue now).1.map (·.order)) where
  ordered := h.ordered.popDue now
  nodup := by
    rw [List.append_assoc, show (b.popDue now).2.agenda = (b.agenda.popDue now).2 from rfl,
      ← List.map_append, Agenda.popDue_append]
    exact h.nodup
  below o ho := by
    rcases List.mem_append.mp ho with ho | ho
    · exact h.below o ho
    · obtain ⟨r, hr, rfl⟩ := List.mem_map.mp ho
      exact h.ordered.below r (Agenda.mem_of_mem_due hr)

theorem Spent.cancel (h : Spent b fired) (target : Nat)
    (ha : b'.agenda = (b.agenda.cancel target).2) : Spent b' fired where
  ordered := ha ▸ h.ordered.cancel target
  nodup := by
    rw [ha]
    exact h.nodup.sublist ((List.Sublist.refl fired).append (List.filter_sublist.map _))
  below := by
    rw [ha]
    exact h.below

theorem Spent.arm (h : Spent b fired) {event : ScheduledEvent} {occurrences : List (Nat × Nat)}
    (ha : b'.agenda = b.agenda.arm event occurrences) : Spent b' fired where
  ordered := ha ▸ h.ordered.arm event occurrences
  nodup := by
    have hp := ((Agenda.arm_perm b.agenda event occurrences).map (·.order)).append_left fired
    rw [ha, hp.nodup_iff, List.map_append, Agenda.map_order_number, ← List.append_assoc,
      List.nodup_append]
    refine ⟨h.nodup, List.nodup_range', ?_⟩
    intro o ho o' ho'
    have hlt : o < b.agenda.nextOrder := by
      rcases List.mem_append.mp ho with ho | ho
      · exact h.below o ho
      · obtain ⟨r, hr, rfl⟩ := List.mem_map.mp ho
        exact h.ordered.below r hr
    have := (List.mem_range'_1.mp ho').1
    omega
  below o ho := by
    have hlt := h.below o ho
    rw [ha]
    exact Nat.lt_of_lt_of_le hlt (Nat.le_add_right _ _)

/-- What a deed that neither fires nor drops the broker does to the agenda spends no rule. -/
theorem Spent.perform (hs : Spent b fired) {d : Deed}
    (hf : d.action.isFiring = false) (hd : d.action.isDrop = false) : Spent (b.perform d) fired := by
  have ha := (Broker.perform_framed b d).agenda
  obtain ⟨m, action⟩ := d
  cases action with
  | popDue | fire => cases hf
  | drop => cases hd
  | cancelFor target => exact hs.cancel target rfl
  | arm id event targets => exact hs.arm rfl
  | _ => exact hs.of_agenda (ha rfl)

theorem Spent.fire (h : Spent b fired) (hl : b.Linked) (now : Nat) (m : Moment) :
    Spent (b.replay (b.fireDeeds now m))
      (fired ++ (firings (b.journal (b.fireDeeds now m))).map (·.rule.order)) := by
  have hm : (firings (b.journal (b.fireDeeds now m))).map (·.rule.order) =
      ((b.agenda.popDue now).1.filter fun r => (b.firing? r).isSome).map (·.order) := by
    rw [← Broker.firings_fireDeeds hl, List.map_map]
    rfl
  have hs := (List.filter_sublist (p := fun r => (b.firing? r).isSome)
    (l := (b.agenda.popDue now).1)).map ArmedRule.order
  refine ⟨?_, ?_, ?_⟩
  · rw [Broker.fireDeeds_agenda]
    exact h.ordered.popDue now
  · have hn := h.nodup
    rw [← Agenda.popDue_append b.agenda now, List.map_append, ← List.append_assoc] at hn
    rw [Broker.fireDeeds_agenda, hm]
    exact hn.sublist (((List.Sublist.refl fired).append hs).append (List.Sublist.refl _))
  · intro o ho
    rw [Broker.fireDeeds_agenda, Agenda.popDue_nextOrder]
    rcases List.mem_append.mp ho with ho | ho
    · exact h.below o ho
    · rw [hm] at ho
      obtain ⟨r, hr, rfl⟩ := List.mem_map.mp (hs.subset ho)
      exact h.ordered.below r (Agenda.mem_of_mem_due hr)

theorem Spent.step {s : Session} {x : Step} (hx : x.isFacade = true) (hl : s.broker.Linked)
    (h : Spent s.broker fired) : Spent (s.broker.replay (s.callerDeeds x))
      (fired ++ (firings (s.broker.journal (s.callerDeeds x))).map (·.rule.order)) := by
  by_cases hf : ∃ now, x = .fire now
  · obtain ⟨now, rfl⟩ := hf
    exact h.fire hl _ _
  by_cases hd : ∃ id, x = .deleteQueue id
  · obtain ⟨id, rfl⟩ := hd
    simp only [callerDeeds, Broker.deleteQueueDeeds]
    split
    · next q hq =>
      rw [Broker.firings_eq_nil (by simp [Action.fires]), List.map_nil, List.append_nil]
      refine h.cancel q.serial ?_
      rw [Broker.replay_cons, Broker.replay_cons, Broker.replay_nil]
      have ha := (Broker.perform_framed s.broker ⟨s.moment, .retire id⟩).agenda rfl
      rw [← ha]
      rfl
    · simpa [Broker.journal, firings] using h
  by_cases hs : ∃ event, x = .submit event
  · obtain ⟨event, rfl⟩ := hs
    simp only [callerDeeds, Broker.submitDeeds]
    split
    · rw [Broker.firings_eq_nil (by simp [Action.fires]), List.map_nil, List.append_nil]
      exact h.arm rfl
    · simpa [Broker.journal, firings] using h
  · have hspare := fun d hm => s.callerDeeds_spare (d := d) hx (fun now he => hf ⟨now, he⟩)
      (fun id he => hd ⟨id, he⟩) (fun event he => hs ⟨event, he⟩) hm
    have ha := Broker.replay_agenda (b := s.broker) fun d hm => (hspare d hm).1
    rw [Broker.firings_eq_nil fun d hm => (hspare d hm).2, List.map_nil, List.append_nil]
    exact h.of_agenda ha

theorem Quiet.spent_run {s s' : Session} {steps : List Step} {answers : List Answer}
    (hq : s.Quiet) (h : s.broker.Linked) (hs : Spent s.broker fired)
    (hf : ∀ x ∈ steps, x.isFacade = true) (hr : s.run steps = .ok (answers, s')) :
    Spent s'.broker (fired ++ (firings (s.journal steps)).map (·.rule.order)) := by
  have hp := Quiet.journal_induction
    (P := fun s past => Spent s.broker (fired ++ (firings past).map (·.rule.order)))
    (fun {s s' x a past} _ hl hx _ hb hp => by
      rw [hb, firings_append, List.map_append, ← List.append_assoc]
      exact Spent.step hx hl hp)
    hq h hf hr [] (by simpa [firings] using hs)
  simpa using hp

end Session

end EventBroker
