import EventBroker.Proofs.ChannelHistory
import EventBroker.Proofs.SessionFrames

/-! # Sessions without tasks

As long as steps are taken on the broker itself, `Step.isFacade`, a session has no driver, no
reapers and no sockets: it is `Quiet`. Its steps are then what the caller does and nothing else.
-/
set_option autoImplicit false

namespace EventBroker

/-- Whether an action touches no rule and neither creates a channel nor takes events out of one. -/
def Action.isPlain : Action → Bool
  | .createQueue _ | .getChannel _ | .close _ => true
  | .subscribe _ | .unsubscribe _ | .receive _ | .receiveUpTo _ _ => true
  | _ => false

/-- Whether an action arms, cancels or fires rules. -/
def Action.concernsRules : Action → Bool
  | .retire _ | .cancelFor _ | .arm _ _ _ | .popDue _ | .fire _ => true
  | _ => false

namespace Session

/-- Nothing runs beside the caller. -/
structure Quiet (s : Session) : Prop where
  driver : s.driver = none
  reapers : s.reapers = []
  sockets : s.sockets = []

theorem Quiet.new (supply : IdSupply) (b : Broker) (m : Moment) : (Session.new supply b m).Quiet :=
  ⟨rfl, rfl, rfl⟩

namespace Quiet

variable {s s' : Session} {x : Step} {a : Answer}

theorem settle (h : s.Quiet) : s.settle = .ok s := by
  obtain ⟨supply, broker, moment, driver, reapers, subscriptions, sockets⟩ := s
  obtain ⟨rfl, rfl, rfl⟩ := h
  rfl

theorem taskDeeds (h : s.Quiet) : s.taskDeeds = [] := by
  obtain ⟨supply, broker, moment, driver, reapers, subscriptions, sockets⟩ := s
  obtain ⟨rfl, rfl, rfl⟩ := h
  rfl

theorem isWaiting (h : s.Quiet) : s.isWaiting = false := by
  simp [Session.isWaiting, h.driver, h.reapers]

theorem act (h : s.Quiet) (hx : x.isFacade = true) (ha : s.act x = .ok (a, s')) :
    s'.Quiet ∧ s'.supply = s.supply := by
  by_cases ht : ∃ ms, x = .advance ms
  · obtain ⟨ms, rfl⟩ := ht
    obtain ⟨t, hp, he⟩ := map_eq_ok_iff.mp ha
    cases he
    rw [advance, if_neg (by simp [h.isWaiting])] at hp
    cases hp
    exact ⟨⟨h.driver, h.reapers, h.sockets⟩, rfl⟩
  · have hd := Step.isDriver_of_isFacade hx
    have hacted := act_acted (fun ms he => ht ⟨ms, he⟩) (Step.isDrop_of_isDriver hd) ha
    have hr := hacted.reapers (Step.startsReaper_of_isFacade hx)
    exact ⟨⟨(hacted.driver hd).trans h.driver, hr.trans h.reapers,
      (hacted.sockets hx).trans h.sockets⟩, hacted.supply⟩

theorem step_iff (h : s.Quiet) (hx : x.isFacade = true) :
    s.step x = .ok (a, s') ↔ s.act x = .ok (a, s') := by
  rw [step_eq_ok_iff]
  constructor
  · rintro ⟨acted, ha, hs⟩
    rw [(h.act hx ha).1.settle] at hs
    cases hs
    exact ha
  · exact fun ha => ⟨s', ha, (h.act hx ha).1.settle⟩

theorem step (h : s.Quiet) (hx : x.isFacade = true) (hs : s.step x = .ok (a, s')) :
    s'.Quiet ∧ s'.supply = s.supply := h.act hx ((h.step_iff hx).mp hs)

theorem stepDeeds (h : s.Quiet) (hx : x.isFacade = true) (hs : s.step x = .ok (a, s')) :
    s.stepDeeds x = s.callerDeeds x := by
  have ha := (h.step_iff hx).mp hs
  have hi : s.innerBeats x = [] := by
    cases x with
    | advance ms => simp [innerBeats, h.isWaiting]
    | _ => rfl
  simp [Session.stepDeeds, beats, hi, ha, (h.act hx ha).1.taskDeeds]

theorem run {steps : List Step} {answers : List Answer} (h : s.Quiet)
    (hf : ∀ x ∈ steps, x.isFacade = true) (hr : s.run steps = .ok (answers, s')) :
    s'.Quiet ∧ s'.supply = s.supply := by
  induction steps generalizing s answers with
  | nil =>
    cases hr
    exact ⟨h, rfl⟩
  | cons x rest ih =>
    rw [List.forall_mem_cons] at hf
    obtain ⟨a, mid, later, hx, hr, -⟩ := run_cons_eq_ok_iff.mp hr
    obtain ⟨hq, hs⟩ := h.step hf.1 hx
    obtain ⟨hq', hs'⟩ := ih hq hf.2 hr
    exact ⟨hq', hs'.trans hs⟩

end Quiet

/-! ## Steps by what they do -/

/-- Five steps do more than plain deeds. -/
theorem callerDeeds_cases (s : Session) {x : Step} (hx : x.isFacade = true) :
    (∃ now, x = .fire now) ∨ (∃ id, x = .deleteQueue id) ∨ (∃ event, x = .submit event) ∨
      (∃ queues options, x = .createChannel queues options) ∨ (∃ text, x = .dequeue text) ∨
      ∀ d ∈ s.callerDeeds x, d.action.isPlain = true := by
  cases x with
  | fire now => exact .inl ⟨now, rfl⟩
  | deleteQueue id => exact .inr (.inl ⟨id, rfl⟩)
  | submit event => exact .inr (.inr (.inl ⟨event, rfl⟩))
  | createChannel queues options => exact .inr (.inr (.inr (.inl ⟨queues, options, rfl⟩)))
  | dequeue text => exact .inr (.inr (.inr (.inr (.inl ⟨text, rfl⟩))))
  | createQueue | subscribe =>
    refine .inr (.inr (.inr (.inr (.inr fun d hm => ?_))))
    rw [callerDeeds, List.mem_singleton] at hm
    subst hm
    rfl
  | getChannel text =>
    refine .inr (.inr (.inr (.inr (.inr fun d hm => ?_))))
    simp only [callerDeeds, List.mem_flatMap, List.mem_singleton] at hm
    obtain ⟨id, -, rfl⟩ := hm
    rfl
  | deleteChannel text =>
    refine .inr (.inr (.inr (.inr (.inr fun d hm => ?_))))
    simp only [callerDeeds, List.mem_flatMap, Broker.closeDeeds] at hm
    obtain ⟨id, -, hm⟩ := hm
    split at hm
    · rw [List.mem_singleton] at hm
      subst hm
      rfl
    · cases hm
  | reap timeout =>
    refine .inr (.inr (.inr (.inr (.inr fun d hm => ?_))))
    obtain ⟨c, -, rfl⟩ := List.mem_map.mp hm
    rfl
  | receive | receiveOne | unsubscribe =>
    refine .inr (.inr (.inr (.inr (.inr fun d hm => ?_))))
    obtain ⟨sub, -, rfl⟩ := List.mem_map.mp hm
    rfl
  | listQueues | getQueue | listChannels | now | advance | setWall | subscriberCount | metrics =>
    exact .inr (.inr (.inr (.inr (.inr fun d hm => absurd hm List.not_mem_nil))))
  | startDriver | stopDriver | startReaper | dropBroker | http | connect | readSocket | send
  | closeSocket => cases hx

theorem mem_callerDeeds_cases (s : Session) {x : Step} (hx : x.isFacade = true) {d : Deed}
    (hm : d ∈ s.callerDeeds x) :
    d.action.isPlain = true ∨ d.action.concernsRules = true ∨
      (∃ queues options, x = .createChannel queues options ∧
        d = ⟨s.moment, .createChannel s.fresh.channel queues options⟩) ∨
      ∃ text id, x = .dequeue text ∧ d = ⟨s.moment, .dequeue id⟩ := by
  rcases s.callerDeeds_cases hx with ⟨now, rfl⟩ | ⟨id, rfl⟩ | ⟨event, rfl⟩ |
    ⟨queues, options, rfl⟩ | ⟨text, rfl⟩ | hp
  · rcases List.mem_cons.mp hm with rfl | hm
    · exact .inr (.inl rfl)
    · obtain ⟨r, -, rfl⟩ := List.mem_map.mp hm
      exact .inr (.inl rfl)
  · simp only [callerDeeds, Broker.deleteQueueDeeds] at hm
    split at hm
    · simp only [List.mem_cons, List.not_mem_nil, or_false] at hm
      rcases hm with rfl | rfl <;> exact .inr (.inl rfl)
    · cases hm
  · simp only [callerDeeds, Broker.submitDeeds] at hm
    split at hm
    · rw [List.mem_singleton.mp hm]
      exact .inr (.inl rfl)
    · cases hm
  · exact .inr (.inr (.inl ⟨queues, options, rfl, List.mem_singleton.mp hm⟩))
  · simp only [callerDeeds, List.mem_flatMap, List.mem_singleton] at hm
    obtain ⟨id, -, rfl⟩ := hm
    exact .inr (.inr (.inr ⟨text, id, rfl, rfl⟩))
  · exact .inl (hp d hm)

end Session

end EventBroker
