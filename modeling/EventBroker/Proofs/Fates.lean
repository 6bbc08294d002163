import EventBroker.Proofs.Accounts
import Mathlib.Algebra.GroupWithZero.Nat

/-! # The fate of an occurrence

An armed rule is decided by the first step that either fires what is due at a time no earlier than
the rule's, or deletes the incarnation at which it aims: `verdict?`. Until then it is armed; in the
first case it has fired once, into that incarnation, and in the second never (`Quiet.hasFate`). With
the books in order this gives `occurrence_fates`.
-/
set_option autoImplicit false

namespace EventBroker

/-- Whether a step was answered by accepting an event. -/
def Answer.isAccepted : Answer → Bool
  | .accepted _ => true
  | _ => false

/-- What a step does with an armed rule. -/
inductive Verdict where
  | fires
  | cancels
  deriving DecidableEq

/-- What has become of an occurrence. -/
inductive Fate where
  | armed
  | fired
  | cancelled
  deriving DecidableEq

namespace Session

/-- Whether a step fires an armed rule or deletes the incarnation at which it aims. -/
def verdict? (r : ArmedRule) (s : Session) : Step → Option Verdict
  | .fire now => if r.fireAt ≤ now.getD s.moment.now then some .fires else none
  | .deleteQueue id =>
    if (s.broker.registry.find? id).any (·.serial == r.target) then some .cancels else none
  | _ => none

/-- The first step of a run that decides on a rule. -/
structure Decision (s : Session) (steps : List Step) (r : ArmedRule) (v : Verdict) where
  before : List Step
  x : Step
  after : List Step
  earlier : List Answer
  prior : Session
  steps_eq : steps = before ++ x :: after
  run_before : s.run before = .ok (earlier, prior)
  undecided : ∀ y ∈ s.trail before, y.1.verdict? r y.2 = none
  decided : prior.verdict? r x = some v

/-- What it means for a rule that is armed at the start of a run to have a fate at its end. -/
def HasFate (s : Session) (steps : List Step) (final : Session) (r : ArmedRule) : Fate → Prop
  | .armed => r ∈ final.broker.agenda.rules ∧
      (firings (s.journal steps)).filter (·.rule.order == r.order) = [] ∧
      ∀ y ∈ s.trail steps, y.1.verdict? r y.2 = none
  | .fired => r ∉ final.broker.agenda.rules ∧
      ∃ k : Decision s steps r .fires, ∃ f,
        (firings (s.journal steps)).filter (·.rule.order == r.order) = [f] ∧
        f ∈ firings (k.prior.broker.journal (k.prior.callerDeeds k.x)) ∧
        f.rule = r ∧ f.queue.serial = r.target
  | .cancelled => r ∉ final.broker.agenda.rules ∧
      (firings (s.journal steps)).filter (·.rule.order == r.order) = [] ∧
      Nonempty (Decision s steps r .cancels)

/-! ## One step -/

variable {s s' : Session} {x : Step} {r : ArmedRule}

/-- What is not decided stays armed and does not fire. -/
theorem undecided_step (hx : x.isFacade = true) (hl : s.broker.Linked)
    (ho : s.broker.agenda.Ordered) (hr : r ∈ s.broker.agenda.rules)
    (hv : s.verdict? r x = none) :
    r ∈ (s.broker.replay (s.callerDeeds x)).agenda.rules ∧
      (firings (s.broker.journal (s.callerDeeds x))).filter (·.rule.order == r.order) = [] := by
  by_cases hf : ∃ now, x = .fire now
  · obtain ⟨now, rfl⟩ := hf
    have hlate : now.getD s.moment.now < r.fireAt := by simpa [verdict?] using hv
    refine ⟨?_, ?_⟩
    · rw [callerDeeds, Broker.fireDeeds_agenda]
      exact ho.mem_left_iff.mpr ⟨hr, hlate⟩
    · rw [List.filter_eq_nil_iff]
      intro f hfired hord
      have hm : f.rule ∈ (firings (s.broker.journal (s.callerDeeds (.fire now)))).map (·.rule) :=
        List.mem_map_of_mem hfired
      rw [callerDeeds, Broker.firings_fireDeeds hl] at hm
      have hdue := ho.mem_due_iff.mp (List.mem_filter.mp hm).1
      have he := ho.eq_of_order hdue.1 hr (beq_iff_eq.mp hord)
      rw [he] at hdue
      omega
  by_cases hd : ∃ id, x = .deleteQueue id
  · obtain ⟨id, rfl⟩ := hd
    simp only [callerDeeds, Broker.deleteQueueDeeds]
    cases hq : s.broker.registry.find? id with
    | none => exact ⟨hr, rfl⟩
    | some q =>
      have hne : q.serial ≠ r.target := by simpa [verdict?, hq] using hv
      rw [Broker.firings_eq_nil (by simp [Action.fires])]
      refine ⟨?_, rfl⟩
      have ha := (Broker.perform_framed s.broker ⟨s.moment, .retire id⟩).agenda rfl
      exact Agenda.mem_cancel_iff.mpr ⟨by rw [ha]; exact hr, fun he => hne he.symm⟩
  by_cases hs : ∃ event, x = .submit event
  · obtain ⟨event, rfl⟩ := hs
    simp only [callerDeeds, Broker.submitDeeds]
    split
    · rw [Broker.firings_eq_nil (by simp [Action.fires])]
      exact ⟨Agenda.mem_arm_iff.mpr (.inl hr), rfl⟩
    · exact ⟨hr, rfl⟩
  · have hspare := fun d hm => s.callerDeeds_spare (d := d) hx (fun now he => hf ⟨now, he⟩)
      (fun id he => hd ⟨id, he⟩) (fun event he => hs ⟨event, he⟩) hm
    rw [Broker.firings_eq_nil fun d hm => (hspare d hm).2,
      Broker.replay_agenda fun d hm => (hspare d hm).1]
    exact ⟨hr, rfl⟩

theorem filter_eq_singleton {α : Type} {g : α → Nat} {l : List α} (h : (l.map g).Nodup) {a : α}
    (ha : a ∈ l) : l.filter (g · == g a) = [a] := by
  induction l with
  | nil => cases ha
  | cons b rest ih =>
    rw [List.map_cons, List.nodup_cons] at h
    rcases List.mem_cons.mp ha with rfl | ha
    · rw [List.filter_cons_of_pos (by simp), List.filter_eq_nil_iff.mpr]
      intro c hc he
      exact h.1 (List.mem_map.mpr ⟨c, hc, beq_iff_eq.mp he⟩)
    · rw [List.filter_cons_of_neg]
      · exact ih h.2 ha
      · intro he
        exact h.1 (List.mem_map.mpr ⟨a, ha, (beq_iff_eq.mp he).symm⟩)

/-- What is due fires once. -/
theorem fires_step (hl : s.broker.Linked) (ho : s.broker.agenda.Ordered)
    (ha : s.broker.Accounted []) (hr : r ∈ s.broker.agenda.rules)
    (hv : s.verdict? r x = some .fires) :
    ∃ f, (firings (s.broker.journal (s.callerDeeds x))).filter (·.rule.order == r.order) = [f] ∧
      f.rule = r := by
  cases x with
  | fire now =>
    have hdue : r.fireAt ≤ now.getD s.moment.now := by simpa [verdict?] using hv
    have hrules : (firings (s.broker.journal (s.callerDeeds (.fire now)))).map (·.rule) =
        (s.broker.agenda.popDue (now.getD s.moment.now)).1 := by
      rw [callerDeeds, Broker.firings_fireDeeds hl, List.filter_eq_self]
      exact fun r' hr' => ha.aimed r' (Agenda.mem_of_mem_due hr')
    obtain ⟨f, hf, rfl⟩ : ∃ f ∈ firings (s.broker.journal (s.callerDeeds (.fire now))),
        f.rule = r := by
      have hm : r ∈ (firings (s.broker.journal (s.callerDeeds (.fire now)))).map (·.rule) := by
        rw [hrules]
        exact ho.mem_due_iff.mpr ⟨hr, hdue⟩
      exact List.mem_map.mp hm
    have hnodup : ((firings (s.broker.journal (s.callerDeeds (.fire now)))).map
        (·.rule.order)).Nodup := by
      have hs := ho.distinct.sublist ((Agenda.due_sublist s.broker.agenda
        (now.getD s.moment.now)).map ArmedRule.order)
      rwa [← hrules, List.map_map] at hs
    exact ⟨f, filter_eq_singleton hnodup hf, rfl⟩
  | deleteQueue id =>
    simp only [verdict?] at hv
    split at hv <;> cases hv
  | _ => cases hv

/-- What is cancelled does not fire, and its order is not given again. -/
theorem cancels_step (ho : s.broker.agenda.Ordered) (hr : r ∈ s.broker.agenda.rules)
    (hv : s.verdict? r x = some .cancels) :
    firings (s.broker.journal (s.callerDeeds x)) = [] ∧
      Spent (s.broker.replay (s.callerDeeds x)) [r.order] := by
  cases x with
  | fire now =>
    simp only [verdict?] at hv
    split at hv <;> cases hv
  | deleteQueue id =>
    cases hq : s.broker.registry.find? id with
    | none => simp [verdict?, hq] at hv
    | some q =>
      have he : q.serial = r.target := by simpa [verdict?, hq] using hv
      have hretire := (Broker.perform_framed s.broker ⟨s.moment, .retire id⟩).agenda rfl
      have ha : (s.broker.replay (s.callerDeeds (.deleteQueue id))).agenda =
          (s.broker.agenda.cancel q.serial).2 := by
        simp only [callerDeeds, Broker.deleteQueueDeeds, hq]
        rw [Broker.replay_cons, Broker.replay_cons, Broker.replay_nil, ← hretire]
        rfl
      refine ⟨?_, ⟨?_, ?_, ?_⟩⟩
      · simp only [callerDeeds, Broker.deleteQueueDeeds, hq]
        exact Broker.firings_eq_nil (by simp [Action.fires])
      · rw [ha]
        exact ho.cancel q.serial
      · rw [ha, List.singleton_append, List.nodup_cons]
        refine ⟨fun hm => ?_, (ho.cancel q.serial).distinct⟩
        obtain ⟨r', hr', hord⟩ := List.mem_map.mp hm
        obtain ⟨hr', hne⟩ := Agenda.mem_cancel_iff.mp hr'
        rw [ho.eq_of_order hr' hr hord] at hne
        exact hne he.symm
      · intro o hm
        rw [List.mem_singleton.mp hm, ha]
        exact ho.below r hr
  | _ => cases hv

/-! ## Runs -/

/-- What is spent neither fires nor is armed any more. -/
theorem Quiet.spent_forever {steps : List Step} {answers : List Answer} {spent : List Nat} {o : Nat}
    (hq : s.Quiet) (hl : s.broker.Linked) (hs : Spent s.broker spent) (ho : o ∈ spent)
    (hf : ∀ x ∈ steps, x.isFacade = true) (hr : s.run steps = .ok (answers, s')) :
    (firings (s.journal steps)).filter (·.rule.order == o) = [] ∧
      ∀ r ∈ s'.broker.agenda.rules, r.order ≠ o := by
  have hn := (hq.spent_run hl hs hf hr).nodup
  rw [List.nodup_append, List.nodup_append] at hn
  refine ⟨?_, ?_⟩
  · rw [List.filter_eq_nil_iff]
    intro f hf he
    exact hn.1.2.2 o ho _ (List.mem_map_of_mem hf) (beq_iff_eq.mp he).symm
  · intro r hr he
    exact hn.2.2 o (List.mem_append_left _ ho) _ (List.mem_map_of_mem hr) he.symm

/-- The decision that follows a step which decides nothing. -/
def Decision.cons {a : Answer} {steps : List Step} {v : Verdict} (hs : s.step x = .ok (a, s'))
    (hv : s.verdict? r x = none) (k : Decision s' steps r v) : Decision s (x :: steps) r v where
  before := x :: k.before
  x := k.x
  after := k.after
  earlier := a :: k.earlier
  prior := k.prior
  steps_eq := congrArg (x :: ·) k.steps_eq
  run_before := run_cons_eq_ok_iff.mpr ⟨a, s', k.earlier, hs, k.run_before, rfl⟩
  undecided := by
    simp only [trail, hs, List.forall_mem_cons]
    exact ⟨hv, k.undecided⟩
  decided := k.decided

/-- The decision that is made at once. -/
def Decision.here {steps : List Step} {v : Verdict} (hv : s.verdict? r x = some v) :
    Decision s (x :: steps) r v where
  before := []
  x := x
  after := steps
  earlier := []
  prior := s
  steps_eq := rfl
  run_before := rfl
  undecided := fun _ hy => absurd hy List.not_mem_nil
  decided := hv

/-- A step that decides nothing leaves the fate to the rest of the run. -/
theorem HasFate.cons {mid : Session} {a : Answer} {rest : List Step} {fate : Fate}
    (hx : s.step x = .ok (a, mid)) (hv : s.verdict? r x = none)
    (hj : s.journal (x :: rest) = s.broker.journal (s.callerDeeds x) ++ mid.journal rest)
    (hnone : (firings (s.broker.journal (s.callerDeeds x))).filter (·.rule.order == r.order) = [])
    (h : HasFate mid rest s' r fate) : HasFate s (x :: rest) s' r fate := by
  have hfirings : (firings (s.journal (x :: rest))).filter (·.rule.order == r.order) =
      (firings (mid.journal rest)).filter (·.rule.order == r.order) := by
    rw [hj, firings_append, List.filter_append, hnone, List.nil_append]
  cases fate with
  | armed =>
    refine ⟨h.1, hfirings.trans h.2.1, ?_⟩
    simp only [trail, hx, List.forall_mem_cons]
    exact ⟨hv, h.2.2⟩
  | fired =>
    obtain ⟨hgone, k, f, hone, hmem, hrule, hser⟩ := h
    exact ⟨hgone, k.cons hx hv, f, hfirings.trans hone, hmem, hrule, hser⟩
  | cancelled =>
    obtain ⟨hgone, hno, ⟨k⟩⟩ := h
    exact ⟨hgone, hfirings.trans hno, ⟨k.cons hx hv⟩⟩

/-- A rule that is armed at the start of a run has a fate at its end. -/
theorem Quiet.hasFate {steps : List Step} {answers : List Answer} (hq : s.Quiet)
    (hl : s.broker.Linked) (ho : s.broker.agenda.Ordered) (ha : s.broker.Accounted [])
    (hr : r ∈ s.broker.agenda.rules) (hf : ∀ x ∈ steps, x.isFacade = true)
    (hrun : s.run steps = .ok (answers, s')) : ∃ fate, HasFate s steps s' r fate := by
  induction steps generalizing s answers with
  | nil =>
    cases hrun
    exact ⟨.armed, hr, rfl, fun _ hy => absurd hy List.not_mem_nil⟩
  | cons x rest ih =>
    rw [List.forall_mem_cons] at hf
    obtain ⟨a, mid, later, hx, hrest, -⟩ := run_cons_eq_ok_iff.mp hrun
    have hqm := (hq.step hf.1 hx).1
    have hlm := linked_step hl hx
    have hb := step_replays hl hx
    rw [hq.stepDeeds hf.1 hx] at hb
    have hj : s.journal (x :: rest) = s.broker.journal (s.callerDeeds x) ++ mid.journal rest := by
      simp only [journal, deeds, hx, hq.stepDeeds hf.1 hx, Broker.journal_append, ← hb]
    cases hv : s.verdict? r x with
    | none =>
      obtain ⟨hrm, hnone⟩ := undecided_step hf.1 hl ho hr hv
      rw [← hb] at hrm
      have hom := (Spent.step hf.1 hl (Spent.start ho)).ordered
      have ham := accounted_step hf.1 hl ha
      rw [← hb] at hom ham
      obtain ⟨fate, hfate⟩ := ih hqm hlm hom ham.1 hrm hf.2 hrest
      exact ⟨fate, hfate.cons hx hv hj hnone⟩
    | some v =>
      cases v with
      | fires =>
        obtain ⟨f, hone, hrule⟩ := fires_step hl ho ha hr hv
        have hmem : f ∈ firings (s.broker.journal (s.callerDeeds x)) := by
          have hm : f ∈ (firings (s.broker.journal (s.callerDeeds x))).filter
              (·.rule.order == r.order) := by
            rw [hone]
            exact List.mem_singleton_self f
          exact (List.mem_filter.mp hm).1
        -- its order is spent, so nothing in the rest is taken for this rule
        have hs := Spent.step hf.1 hl (Spent.start ho)
        rw [← hb] at hs
        obtain ⟨hno, hgone⟩ := hqm.spent_forever hlm hs (o := r.order)
          (List.mem_append_right _ (List.mem_map.mpr ⟨f, hmem, by rw [hrule]⟩)) hf.2 hrest
        refine ⟨.fired, fun hm => hgone r hm rfl, .here hv, f, ?_, hmem, hrule, ?_⟩
        · rw [hj, firings_append, List.filter_append, hone, hno]
          rfl
        · rw [← hrule]
          exact (hl.extends_firing hmem).2.2.1
      | cancels =>
        obtain ⟨hnone, hs⟩ := cancels_step ho hr hv
        rw [← hb] at hs
        obtain ⟨hno, hgone⟩ := hqm.spent_forever hlm hs (List.mem_singleton_self _) hf.2 hrest
        refine ⟨.cancelled, fun hm => hgone r hm rfl, ?_, ⟨.here hv⟩⟩
        rw [hj, firings_append, List.filter_append, hnone, hno]
        rfl

/-- No rule has two fates. -/
theorem HasFate.unique {steps : List Step} {fate fate' : Fate} (h : HasFate s steps s' r fate)
    (h' : HasFate s steps s' r fate') : fate = fate' := by
  cases fate <;> cases fate' <;> first
    | rfl
    | exact absurd h.1 h'.1
    | exact absurd h'.1 h.1
    | skip
  · obtain ⟨-, -, f, hf, -⟩ := h
    rw [h'.2.1] at hf
    cases hf
  · obtain ⟨-, -, f, hf, -⟩ := h'
    rw [h.2.1] at hf
    cases hf

/-! ## Acceptance -/

/-- A step of a run that submits an event which is accepted. -/
structure Acceptance (s : Session) (steps : List Step) (final : Session) where
  before : List Step
  event : NewEvent
  after : List Step
  earlier : List Answer
  later : List Answer
  prior : Session
  made : Session
  id : EventId
  steps_eq : steps = before ++ .submit event :: after
  run_before : s.run before = .ok (earlier, prior)
  step_submit : prior.step (.submit event) = .ok (.accepted id, made)
  run_after : made.run after = .ok (later, final)

theorem Acceptance.facade {final : Session} {steps : List Step} (k : Acceptance s steps final)
    (hf : ∀ x ∈ steps, x.isFacade = true) :
    (∀ x ∈ k.before, x.isFacade = true) ∧ ∀ x ∈ k.after, x.isFacade = true := by
  rw [k.steps_eq, List.forall_mem_append, List.forall_mem_cons] at hf
  exact ⟨hf.1, hf.2.2⟩

/-- The armed rule of an occurrence: of the `n`-th time of the `i`-th rule, for a time and a target.
Rule after rule and time after time, the occurrences get the orders that are next. -/
def Acceptance.occurrence {final : Session} {steps : List Step} (k : Acceptance s steps final)
    (i n fireAt target : Nat) : ArmedRule :=
  ⟨fireAt, k.prior.broker.agenda.nextOrder +
    ((k.event.rules.take i).flatMap (·.fireTimes)).length + n, target,
    ⟨k.id, k.event.data, k.event.category⟩⟩

theorem getElem?_expand {rules : List ScheduleRule} {targets : List Nat}
    (hlen : rules.length = targets.length) {i : Nat} {rule : ScheduleRule} {target k fireAt : Nat}
    (hr : rules[i]? = some rule) (ht : targets[i]? = some target)
    (hk : rule.fireTimes[k]? = some fireAt) :
    (Broker.expand rules targets)[((rules.take i).flatMap (·.fireTimes)).length + k]? =
      some (target, fireAt) := by
  induction rules generalizing targets i with
  | nil => cases hr
  | cons x rest ih =>
    cases targets with
    | nil => cases hlen
    | cons t ts =>
      have hx : Broker.expand (x :: rest) (t :: ts) =
          x.fireTimes.map ((t, ·)) ++ Broker.expand rest ts := rfl
      have hlen' : rest.length = ts.length := Nat.succ_injective hlen
      cases i with
      | zero =>
        cases hr
        cases ht
        have hlt := (List.getElem?_eq_some_iff.mp hk).1
        rw [hx, List.take_zero, List.flatMap_nil, List.length_nil, Nat.zero_add,
          List.getElem?_append_left (by simpa using hlt), List.getElem?_map, hk]
        rfl
      | succ i =>
        rw [List.getElem?_cons_succ] at hr ht
        rw [hx, List.take_succ_cons, List.flatMap_cons, List.length_append, Nat.add_assoc,
          List.getElem?_append_right (by simp), List.length_map, Nat.add_sub_cancel_left]
        exact ih hlen' hr ht

/-- Each occurrence of an accepted event is armed for the incarnation that its queue's name means.
-/
theorem Acceptance.armed {final : Session} {steps : List Step} (k : Acceptance s steps final)
    (hq : k.prior.Quiet) {i : Nat} {rule : ScheduleRule} {n fireAt : Nat}
    (hr : k.event.rules[i]? = some rule) (hn : rule.fireTimes[n]? = some fireAt) :
    ∃ q ∈ k.prior.broker.registry.registered, q.id = rule.queue ∧
      k.occurrence i n fireAt q.serial ∈ k.made.broker.agenda.rules := by
  have ha := (hq.step_iff rfl).mp k.step_submit
  simp only [act, onBroker, Broker.submit] at ha
  cases ht : k.prior.broker.targets k.event with
  | error e =>
    rw [ht] at ha
    cases ha
  | ok targets =>
    rw [ht] at ha
    simp only [Except.ok.injEq, Prod.mk.injEq, Answer.accepted.injEq] at ha
    obtain ⟨hid, hmade⟩ := ha
    have hspec := Registry.resolve_spec (Broker.resolve_of_targets ht)
    have hlen : k.event.rules.length = targets.length := by simpa using hspec.length_eq
    obtain ⟨hi, rfl⟩ := List.getElem?_eq_some_iff.mp hr
    obtain ⟨q, hfind, hser⟩ := hspec.get (i := i) (by simpa using hi) (by omega)
    obtain ⟨hmem, hret, hqid⟩ := Registry.find?_spec hfind
    refine ⟨q, List.mem_filter.mpr ⟨hmem, by simp [hret]⟩, by simpa using hqid, ?_⟩
    have htarget : targets[i]? = some q.serial := by
      rw [List.getElem?_eq_some_iff]
      exact ⟨by omega, hser.symm⟩
    have hexp := getElem?_expand hlen hr htarget hn
    rw [← hmade]
    refine Agenda.mem_arm_iff.mpr (.inr (List.mem_iff_getElem?.mpr
      ⟨((k.event.rules.take i).flatMap (·.fireTimes)).length + n, ?_⟩))
    rw [Agenda.getElem?_number, hexp, Acceptance.occurrence, ← hid, Nat.add_assoc]
    rfl

/-! ## Totals -/

theorem countP_lt_succ (fs : List Firing) (n : Nat) :
    fs.countP (·.queue.serial < n + 1) = fs.countP (·.queue.serial < n) + firedInto fs n := by
  induction fs with
  | nil => rfl
  | cons f rest ih =>
    simp only [firedInto, List.countP_cons, decide_eq_true_eq, beq_iff_eq] at ih ⊢
    rw [ih]
    split <;> split <;> split <;> omega

theorem sum_firedInto (fs : List Firing) (n : Nat) :
    ((List.range n).map (firedInto fs)).sum = fs.countP (·.queue.serial < n) := by
  induction n with
  | zero => simp
  | succ n ih =>
    rw [List.range_succ, List.map_append, List.sum_append, ih, countP_lt_succ]
    simp

/-- Together the incarnations count as delivered what has fired. -/
theorem sum_delivered {registry : Registry} {fs : List Firing}
    (h : ∀ t, registry.deliveredTo t = firedInto fs t) :
    (registry.queues.map (·.delivered)).sum = fs.length := by
  have hmap : registry.queues.map (·.delivered) =
      (List.range registry.queues.length).map (firedInto fs) := by
    apply List.ext_getElem
    · simp
    · intro t ht _
      rw [List.getElem_map, List.getElem_map, List.getElem_range, ← h t]
      rw [List.length_map] at ht
      simp [Registry.deliveredTo, Registry.get?, ht]
  rw [hmap, sum_firedInto, List.countP_eq_length]
  intro f hf
  have hpos : 0 < firedInto fs f.queue.serial :=
    List.countP_pos_iff.mpr ⟨f, hf, beq_self_eq_true _⟩
  rw [← h, Registry.deliveredTo] at hpos
  cases hq : registry.get? f.queue.serial with
  | none => simp [hq] at hpos
  | some q => exact decide_eq_true (Registry.lt_of_get? hq)

/-- Every occurrence of every accepted event has exactly one fate. The books are right: for each
registered queue the pending rules are those that are armed for it and the delivered ones those that
fired into it, no armed rule aims elsewhere, no rule was dropped, and what was fired is what was
delivered. -/
theorem occurrence_fates {supply : IdSupply} {settings : BrokerSettings} {b : Broker} {m : Moment}
    (hb : Broker.new settings = .ok b) {steps : List Step} {answers : List Answer}
    {final : Session} (hf : ∀ x ∈ steps, x.isFacade = true)
    (hr : (Session.new supply b m).run steps = .ok (answers, final)) :
    (∀ (k : Acceptance (Session.new supply b m) steps final) (i n fireAt : Nat)
      (rule : ScheduleRule), k.event.rules[i]? = some rule → rule.fireTimes[n]? = some fireAt →
      ∃ q ∈ k.prior.broker.registry.registered, q.id = rule.queue ∧
        ∃! fate, HasFate k.made k.after final (k.occurrence i n fireAt q.serial) fate) ∧
    (∀ q ∈ final.broker.registry.registered,
      q.pending = Agenda.aimedAt final.broker.agenda.rules q.serial ∧
      q.delivered = firedInto (firings ((Session.new supply b m).journal steps)) q.serial) ∧
    (∀ r ∈ final.broker.agenda.rules, ∃ q ∈ final.broker.registry.registered,
      q.serial = r.target) ∧
    final.broker.metrics.rulesDropped = 0 ∧
    final.broker.metrics.rulesFired = (final.broker.registry.queues.map (·.delivered)).sum := by
  have hq := Quiet.new supply b m
  have hl : (Session.new supply b m).broker.Linked := Broker.Linked.new hb
  have hlf := linked_run hl hr
  have ha : (Session.new supply b m).broker.Accounted [] := Broker.Accounted.new hb
  have hs : Spent (Session.new supply b m).broker [] := Spent.new hb
  obtain ⟨haf, hfired⟩ := hq.accounted_run hl ha hf hr
  have hdelivered : ∀ t, final.broker.registry.deliveredTo t =
      firedInto (firings ((Session.new supply b m).journal steps)) t := by
    intro t
    have he := (hl.extends_replay ((Session.new supply b m).deeds steps)).delivered t
    rw [← run_replays hl hr] at he
    have hz : (Session.new supply b m).broker.registry.deliveredTo t = 0 :=
      Broker.deliveredTo_new hb t
    rw [he, hz, Nat.zero_add]
    rfl
  refine ⟨fun k i n fireAt rule hi hn => ?_, fun q hm => ?_, fun r hm => ?_, haf.dropped, ?_⟩
  · obtain ⟨hfb, hfa⟩ := k.facade hf
    -- the run up to the acceptance is one of its own
    have hrm := run_concat k.run_before k.step_submit
    have hfm : ∀ x ∈ k.before ++ [.submit k.event], x.isFacade = true :=
      List.forall_mem_append.mpr ⟨hfb, by simp [Step.isFacade]⟩
    obtain ⟨q, hmem, hqid, harmed⟩ := k.armed (hq.run hfb k.run_before).1 hi hn
    obtain ⟨fate, hfate⟩ := (hq.run hfm hrm).1.hasFate (linked_run hl hrm)
      (hq.spent_run hl hs hfm hrm).ordered (hq.accounted_run hl ha hfm hrm).1 harmed hfa k.run_after
    exact ⟨q, hmem, hqid, fate, hfate, fun _ h => h.unique hfate⟩
  · obtain ⟨hmem, -⟩ := List.mem_filter.mp hm
    obtain ⟨t, ht⟩ := Registry.mem_iff_get?.mp hmem
    obtain rfl := hlf.numbered t q ht
    refine ⟨haf.pending _ q ht, ?_⟩
    rw [← hdelivered, Registry.deliveredTo, ht]
    rfl
  · obtain ⟨q, hg, hret⟩ := Broker.firing?_isSome_iff.mp (haf.aimed r hm)
    exact ⟨q, List.mem_filter.mpr ⟨Registry.mem_iff_get?.mpr ⟨_, hg⟩, by simp [hret]⟩,
      hlf.numbered _ q hg⟩
  · have hz : (Session.new supply b m).broker.metrics.rulesFired = 0 := Broker.rulesFired_new hb
    rw [sum_delivered hdelivered, hfired, hz, Nat.zero_add]

/-- A rule whose time has come. -/
theorem occurrence_fates_once :
    ∃ b answers final, Broker.new {} = .ok b ∧
      (Session.new .counting b ⟨0, 0⟩).run [.createQueue "jobs",
        .submit ⟨[65], none, [⟨"jobs", 5, none⟩]⟩, .fire (some 7)] = .ok (answers, final) ∧
      (∃ k : Acceptance (Session.new .counting b ⟨0, 0⟩) [.createQueue "jobs",
        .submit ⟨[65], none, [⟨"jobs", 5, none⟩]⟩, .fire (some 7)] final,
        ∃ q ∈ k.prior.broker.registry.registered, q.id = "jobs" ∧
          ∃! fate, HasFate k.made k.after final (k.occurrence 0 0 5 q.serial) fate) ∧
      final.broker.metrics.rulesFired = 1 ∧
      final.broker.metrics.rulesFired =
        (final.broker.registry.queues.map (·.delivered)).sum := by
  obtain ⟨b, hb⟩ : ∃ b, Broker.new {} = .ok b := ⟨_, rfl⟩
  obtain ⟨answers, final, hr, hp⟩ := of_endsWith (r := (Session.new .counting b ⟨0, 0⟩).run
    [.createQueue "jobs", .submit ⟨[65], none, [⟨"jobs", 5, none⟩]⟩, .fire (some 7)])
    (p := fun answers s => s.broker.metrics.rulesFired == 1 && answers[1]?.any Answer.isAccepted)
    (by cases hb; decide +kernel)
  rw [Bool.and_eq_true, beq_iff_eq] at hp
  obtain ⟨hfates, -, -, -, hsum⟩ := occurrence_fates hb (by decide) hr
  obtain ⟨a, prior, later, hx, hr', rfl⟩ := run_cons_eq_ok_iff.mp hr
  obtain ⟨a', made, later', hs, hr'', rfl⟩ := run_cons_eq_ok_iff.mp hr'
  obtain ⟨id, rfl⟩ : ∃ id, a' = .accepted id := by
    cases a' with
    | accepted id => exact ⟨id, rfl⟩
    | _ => cases hp.2
  let k : Acceptance (Session.new .counting b ⟨0, 0⟩) [.createQueue "jobs",
      .submit ⟨[65], none, [⟨"jobs", 5, none⟩]⟩, .fire (some 7)] final :=
    ⟨[.createQueue "jobs"], _, [.fire (some 7)], [a], later', prior, made, id, rfl,
      run_cons_eq_ok_iff.mpr ⟨a, prior, [], hx, rfl, rfl⟩, hs, hr''⟩
  obtain ⟨q, hq, hid, hfate⟩ := hfates k 0 0 5 ⟨"jobs", 5, none⟩ rfl rfl
  exact ⟨b, _, final, hb, hr, ⟨k, q, hq, hid, hfate⟩, hp.1, hsum⟩

end Session

end EventBroker
