import EventBroker.Proofs.Arming
import EventBroker.Proofs.Links
import EventBroker.Proofs.RuleHeap
import EventBroker.Proofs.SessionFrames
import Mathlib.Data.List.Permutation

/-! # The order of submissions

Accepting an event depends on which queues are registered, and not on what is armed already. So a
list of submissions makes the same calls to the agenda in whatever order it is submitted, only in
another order. If all their times differ, the agenda cannot tell the difference.

What a session does to its broker calls the agenda in turn, `Action.agendaCall?`. So all that is
known of an agenda by its history is known of that of a session (`agenda_follows_history`).
-/
set_option autoImplicit false

namespace EventBroker

namespace Agenda

/-! ## Arming in any order -/

/-- The calls that arm a list of events, each for its targets and times. -/
def armCalls (events : List (ScheduledEvent × List (Nat × Nat))) : List Call :=
  events.map fun e => .arm e.1 e.2

theorem Ordered.plainAt_armCalls {a : Agenda} (h : a.Ordered)
    (events : List (ScheduledEvent × List (Nat × Nat))) (t : Nat) :
    (a.after (armCalls events)).plainAt t =
      a.plainAt t ++ events.flatMap fun e => newAt e.1 e.2 t := by
  induction events generalizing a with
  | nil => simp [armCalls, Agenda.after]
  | cons e rest ih =>
    show ((a.arm e.1 e.2).after (armCalls rest)).plainAt t = _
    rw [ih (h.arm e.1 e.2), h.plainAt_arm, List.append_assoc, List.flatMap_cons]

/-- If all times differ, there is at most one new rule for each. -/
theorem length_newAt_le_one {events : List (ScheduledEvent × List (Nat × Nat))}
    (hd : (events.flatMap fun e => e.2.map (·.2)).Nodup) (t : Nat) :
    (events.flatMap fun e => newAt e.1 e.2 t).length ≤ 1 := by
  have hcount : (events.flatMap fun e => newAt e.1 e.2 t).length =
      (events.flatMap fun e => e.2.map (·.2)).count t := by
    rw [List.length_flatMap, List.count_flatMap]
    congr 2
    funext e
    rw [newAt, List.length_map, Function.comp_apply, List.count, List.countP_map,
      List.countP_eq_length_filter]
    rfl
  rw [hcount]
  exact List.nodup_iff_count_le_one.mp hd t

theorem eq_of_perm_of_length_le_one {β : Type} {l l' : List β} (hp : l.Perm l')
    (hl : l.length ≤ 1) : l = l' := by
  match l, hl with
  | [], _ => exact (List.nil_perm.mp hp).symm
  | [x], _ => exact (List.singleton_perm.mp hp)

/-- Events for different times can be armed in any order. -/
theorem Ordered.plainAt_armCalls_perm {a : Agenda} (h : a.Ordered)
    {events events' : List (ScheduledEvent × List (Nat × Nat))} (hp : events.Perm events')
    (hd : (events.flatMap fun e => e.2.map (·.2)).Nodup) (t : Nat) :
    (a.after (armCalls events)).plainAt t = (a.after (armCalls events')).plainAt t := by
  rw [h.plainAt_armCalls, h.plainAt_armCalls]
  exact congrArg _ (eq_of_perm_of_length_le_one (hp.flatMap_right _) (length_newAt_le_one hd t))

end Agenda

/-- The call to the agenda in an action. -/
def Action.agendaCall? : Action → Option Agenda.Call
  | .arm id event targets =>
    some (.arm ⟨id, event.data, event.category⟩ (Broker.expand event.rules targets))
  | .cancelFor target => some (.cancel target)
  | .popDue now => some (.popDue now)
  | _ => none

namespace Broker

/-! ## What submissions arm -/

/-- Submits events one after another, each under its identifier. -/
def submitAll (b : Broker) (events : List (EventId × NewEvent)) : Broker :=
  events.foldl (fun b e => (b.submit e.1 e.2).2) b

/-- What an event arms if it is accepted. -/
def armed? (b : Broker) (e : EventId × NewEvent) : Option (ScheduledEvent × List (Nat × Nat)) :=
  match b.targets e.2 with
  | .ok targets => some (⟨e.1, e.2.data, e.2.category⟩, expand e.2.rules targets)
  | .error _ => none

theorem resolve_of_sameLinks {b b' : Broker} (h : SameLinks b b') (ids : List String) :
    b'.registry.resolve ids = b.registry.resolve ids := by
  have hbare : ∀ r : Registry,
      r.resolve ids = (Registry.mk (r.queues.map Queue.bare)).resolve ids := by
    intro r
    unfold Registry.resolve
    congr 1
    funext id
    have hfind : (Registry.mk (r.queues.map Queue.bare)).find? id =
        (r.find? id).map Queue.bare := by
      rw [Registry.find?, List.find?_map]
      rfl
    rw [hfind]
    cases r.find? id <;> rfl
  have hq : b'.registry.queues.map Queue.bare = b.registry.queues.map Queue.bare := by
    refine List.ext_getElem? fun t => ?_
    rw [List.getElem?_map, List.getElem?_map]
    exact h.queues t
  rw [hbare, hbare b.registry, hq]

/-- What is accepted does not depend on what was submitted before. -/
theorem targets_submit (b : Broker) (id : EventId) (event event' : NewEvent) :
    (b.submit id event).2.targets event' = b.targets event' := by
  unfold submit
  cases ht : b.targets event with
  | error e => rfl
  | ok targets =>
    unfold Broker.targets
    rw [resolve_of_sameLinks (sameLinks_arm b id event targets)]

theorem submitAll_agenda (b : Broker) (events : List (EventId × NewEvent)) :
    (b.submitAll events).agenda =
      b.agenda.after (Agenda.armCalls (events.filterMap b.armed?)) := by
  induction events generalizing b with
  | nil => rfl
  | cons e rest ih =>
    have hsame : (b.submit e.1 e.2).2.armed? = b.armed? := by
      funext e'
      rw [armed?, targets_submit, armed?]
    rw [submitAll, List.foldl_cons, ← submitAll, ih, hsame]
    cases ht : b.targets e.2 with
    | error err => rw [List.filterMap_cons_none (by rw [armed?, ht]), submit, ht]
    | ok targets =>
      rw [List.filterMap_cons_some (by rw [armed?, ht]), submit, ht]
      rfl

/-- The times that are armed are among those the events ask for. -/
theorem armed_times_sublist (b : Broker) (events : List (EventId × NewEvent)) :
    ((events.filterMap b.armed?).flatMap fun e => e.2.map (·.2)).Sublist
      (events.flatMap fun e => e.2.rules.flatMap ScheduleRule.fireTimes) := by
  have hexpand : ∀ (rules : List ScheduleRule) (targets : List Nat),
      ((expand rules targets).map (·.2)).Sublist (rules.flatMap ScheduleRule.fireTimes) := by
    intro rules
    induction rules with
    | nil => exact fun _ => List.Sublist.refl _
    | cons rule rest ih =>
      intro targets
      cases targets with
      | nil => exact List.nil_sublist _
      | cons target targets =>
        have hcons : (expand (rule :: rest) (target :: targets)).map (·.2) =
            rule.fireTimes ++ (expand rest targets).map (·.2) := by
          simp [expand, Function.comp_def]
        rw [hcons, List.flatMap_cons]
        exact (List.Sublist.refl _).append (ih targets)
  induction events with
  | nil => exact List.Sublist.refl _
  | cons e rest ih =>
    rw [List.flatMap_cons]
    cases ht : b.targets e.2 with
    | error err =>
      rw [List.filterMap_cons_none (by rw [armed?, ht])]
      exact ih.trans (List.sublist_append_right _ _)
    | ok targets =>
      rw [List.filterMap_cons_some (by rw [armed?, ht]), List.flatMap_cons]
      exact (hexpand e.2.rules targets).append ih

/-- Submissions for different times can be made in any order: whatever calls follow are answered
alike. -/
theorem answers_submitAll_perm {b : Broker} (h : b.agenda.Ordered)
    {events events' : List (EventId × NewEvent)} (hp : events.Perm events')
    (hd : (events.flatMap fun e => e.2.rules.flatMap ScheduleRule.fireTimes).Nodup)
    (later : List Agenda.Call) :
    ((b.submitAll events).agenda.answers later).map Agenda.Answer.plain =
      ((b.submitAll events').agenda.answers later).map Agenda.Answer.plain := by
  rw [submitAll_agenda, submitAll_agenda]
  refine (h.after _).answers_plain (h.after _) (fun t => ?_) later
  exact h.plainAt_armCalls_perm (hp.filterMap _) (hd.sublist (b.armed_times_sublist events)) t

/-! ## The agenda of a broker -/

/-- Unless a broker is dropped, its agenda has served just the calls in the deeds done to it. -/
theorem replay_agenda_after (b : Broker) {deeds : List Deed}
    (hd : ∀ d ∈ deeds, d.action.isDrop = false) :
    (b.replay deeds).agenda = b.agenda.after (deeds.filterMap (·.action.agendaCall?)) := by
  induction deeds generalizing b with
  | nil => rfl
  | cons d rest ih =>
    rw [List.forall_mem_cons] at hd
    obtain ⟨m, action⟩ := d
    show ((b.perform ⟨m, action⟩).replay rest).agenda = _
    rw [ih _ hd.2]
    by_cases hs : action.sparesAgenda = true
    · have hnone : action.agendaCall? = none := by
        cases action with
        | arm | cancelFor | popDue => cases hs
        | _ => rfl
      rw [(perform_framed b ⟨m, action⟩).agenda hs, List.filterMap_cons, hnone]
    · cases action with
      | arm id event targets => rfl
      | cancelFor target => rfl
      | popDue now => rfl
      | drop => cases hd.1
      | _ => exact absurd rfl hs

/-- The agenda of a session that drops its broker nowhere. -/
theorem run_agenda {supply : IdSupply} {m : Moment} {b : Broker} (h : b.Linked)
    (hempty : b.agenda = .empty) {steps : List Step} {answers : List Answer} {s : Session}
    (hd : ∀ x ∈ steps, x.isDrop = false)
    (hr : (Session.new supply b m).run steps = .ok (answers, s)) :
    s.broker.maxTick = b.maxTick ∧ s.broker.agenda = Agenda.empty.after
      (((Session.new supply b m).deeds steps).filterMap (·.action.agendaCall?)) := by
  have hb : s.broker = b.replay ((Session.new supply b m).deeds steps) :=
    Session.run_replays h hr
  refine ⟨by rw [hb, replay_maxTick], ?_⟩
  rw [hb, replay_agenda_after b fun d hm => Session.deeds_drop hd hm, hempty]

/-- The agenda against its history. A heap that serves the same calls gives the same answers.
Popping gives the rules that are armed and due, each once, in the order of their times and of
arming; cancelling takes out what aims at one queue and leaves the order of the rest; the driver
sleeps until the first time there is, but no longer than a tick. The agenda of a session has such a
history, the calls in what the session does to its broker, as long as the broker is not dropped. -/
theorem agenda_follows_history {settings : BrokerSettings} {b₀ b : Broker}
    (hnew : Broker.new settings = .ok b₀) (hcap : b.maxTick = b₀.maxTick)
    {calls : List Agenda.Call} (ha : b.agenda = Agenda.empty.after calls) :
    (∀ answers h, RuleHeap.Run .empty calls answers h ↔
      answers = Agenda.empty.answers calls ∧ h = b.agenda.heap) ∧
    (∀ now,
      (b.popDue now).1.Pairwise ArmedRule.Before ∧
      (b.popDue now).1.Perm ((Agenda.waiting 0 calls).filter (·.fireAt ≤ now)) ∧
      (b.popDue now).2.agenda.rules.Perm ((Agenda.waiting 0 calls).filter (now < ·.fireAt))) ∧
    (∀ target,
      (b.agenda.cancel target).1 = (Agenda.waiting 0 calls).countP (·.target == target) ∧
      (b.agenda.cancel target).2.rules.Perm
        ((Agenda.waiting 0 calls).filter (·.target != target)) ∧
      ∀ now, ((b.agenda.cancel target).2.popDue now).1 =
        (b.popDue now).1.filter (·.target != target)) ∧
    (∀ now, b.sleepFor now =
      match ((Agenda.waiting 0 calls).map (·.fireAt)).min? with
      | none => max settings.maxTick 1
      | some first => min (first - now) (max settings.maxTick 1)) ∧
    (∀ events events' : List (EventId × NewEvent), events.Perm events' →
      (events.flatMap fun e => e.2.rules.flatMap ScheduleRule.fireTimes).Nodup →
      ∀ later, ((b.submitAll events).agenda.answers later).map Agenda.Answer.plain =
        ((b.submitAll events').agenda.answers later).map Agenda.Answer.plain) ∧
    (∀ supply m steps answers s, (∀ x ∈ steps, x.isDrop = false) →
      (Session.new supply b₀ m).run steps = .ok (answers, s) →
        s.broker.maxTick = b₀.maxTick ∧ s.broker.agenda = Agenda.empty.after
          (((Session.new supply b₀ m).deeds steps).filterMap (·.action.agendaCall?))) := by
  have ho : b.agenda.Ordered := by
    rw [ha]
    exact Agenda.Ordered.empty.after calls
  have hp : b.agenda.rules.Perm (Agenda.waiting 0 calls) := by
    rw [ha]
    exact Agenda.after_empty_perm calls
  refine ⟨fun answers h => ?_, fun now => ⟨?_, ?_, ?_⟩,
    fun target => ⟨?_, hp.filter _, fun now => ?_⟩,
    fun now => ?_, fun events events' he hd => answers_submitAll_perm ho he hd,
    fun supply m steps answers s hd hr => run_agenda (.new hnew) (by rw [new_eq hnew]) hd hr⟩
  · rw [ha]
    exact Agenda.Ordered.empty.run_iff calls answers h
  · exact ho.strict.sublist (Agenda.due_sublist _ now)
  · show (b.agenda.popDue now).1.Perm _
    rw [(ho.popDue_eq_filter now).1]
    exact hp.filter _
  · show (b.agenda.popDue now).2.rules.Perm _
    rw [(ho.popDue_eq_filter now).2]
    exact hp.filter _
  · rw [Agenda.cancel_count]
    exact hp.countP_eq _
  · show _ = (b.agenda.popDue now).1.filter _
    rw [((ho.cancel target).popDue_eq_filter now).1, (ho.popDue_eq_filter now).1]
    simp only [Agenda.cancel, List.filter_filter]
    exact List.filter_congr fun r _ => Bool.and_comm _ _
  · have hmax : b.maxTick = max settings.maxTick 1 := by rw [hcap, new_eq hnew]
    rw [ho.min?_fireAt hp, sleepFor, Agenda.sleepFor, hmax]
    cases b.agenda.rules <;> rfl

/-- An event is armed, cancelled with its queue, and another one fired. -/
def arming : List Step :=
  [.createQueue "jobs", .submit ⟨[65], none, [⟨"jobs", 5, none⟩]⟩, .deleteQueue "jobs",
    .createQueue "mail", .submit ⟨[66], none, [⟨"mail", 6, none⟩]⟩, .fire (some 7)]

/-- Rules for the same time, one for the largest time there is, a cancellation between them, and two
events that are submitted in either order; and the agenda of a session that calls it four times. -/
theorem agenda_follows_history_once : ∃ b₀ b : Broker, ∃ calls : List Agenda.Call,
    ∃ early late : EventId × NewEvent, Broker.new {} = .ok b₀ ∧ b.maxTick = b₀.maxTick ∧
      b.agenda = Agenda.empty.after calls ∧
      RuleHeap.Run .empty calls [.count 3, .count 1, .count 1, .due []] b.agenda.heap ∧
      (b.popDue 5).1.map (·.order) = [0, 3] ∧
      (b.popDue 5).1.Perm ((Agenda.waiting 0 calls).filter (·.fireAt ≤ 5)) ∧
      ((b.agenda.cancel 1).2.popDue 5).1 = (b.popDue 5).1.filter (·.target != 1) ∧
      b.sleepFor 2 = 3 ∧ b.sleepFor 9 = 0 ∧
      b.armed? early ≠ none ∧ b.armed? late ≠ none ∧
      ((b.submitAll [early, late]).agenda.answers [.popDue 20]).map Agenda.Answer.plain =
        ((b.submitAll [late, early]).agenda.answers [.popDue 20]).map Agenda.Answer.plain ∧
      ∃ answers s made, (Session.new .counting b₀ ⟨0, 0⟩).run arming = .ok (answers, s) ∧
        made = ((Session.new .counting b₀ ⟨0, 0⟩).deeds arming).filterMap
          (·.action.agendaCall?) ∧
        made.length = 4 ∧ s.broker.maxTick = b₀.maxTick ∧
        s.broker.agenda = Agenda.empty.after made := by
  obtain ⟨b₀, hb⟩ : ∃ b₀, Broker.new {} = .ok b₀ := ⟨_, rfl⟩
  let event : ScheduledEvent := ⟨⟨Uuid.ofNat 1⟩, [65], none⟩
  let calls : List Agenda.Call := [.arm event [(0, 5), (1, 5), (0, word64Max)], .cancel 1,
    .arm event [(0, 5)], .popDue 3]
  let early : EventId × NewEvent := (⟨Uuid.ofNat 2⟩, ⟨[66], none, [⟨"jobs", 7, none⟩]⟩)
  let late : EventId × NewEvent := (⟨Uuid.ofNat 3⟩, ⟨[67], none, [⟨"jobs", 9, none⟩]⟩)
  have hagenda : Agenda.empty.after calls =
      ⟨[⟨5, 0, 0, event⟩, ⟨5, 3, 0, event⟩, ⟨word64Max, 2, 0, event⟩], 4⟩ := by cbv
  have hanswers : Agenda.empty.answers calls = [.count 3, .count 1, .count 1, .due []] := by cbv
  let b : Broker := { (b₀.createQueue "jobs").2 with agenda := Agenda.empty.after calls }
  have hcap : b.maxTick = b₀.maxTick := by cases hb; decide +kernel
  obtain ⟨hheap, hpop, hcancel, hsleep, hperm, hsession⟩ :=
    agenda_follows_history (b := b) hb hcap rfl
  obtain ⟨answers, s, hr, -⟩ := Session.of_endsWith
    (r := (Session.new .counting b₀ ⟨0, 0⟩).run arming) (p := fun _ _ => true)
    (by cases hb; decide +kernel)
  obtain ⟨htick, hmade⟩ := hsession .counting ⟨0, 0⟩ arming answers s (by decide) hr
  have hdue : (b.popDue 5).1.map (·.order) = [0, 3] := by
    show ((Agenda.empty.after calls).popDue 5).1.map (·.order) = [0, 3]
    rw [hagenda]
    decide
  refine ⟨b₀, b, calls, early, late, hb, hcap, rfl, (hheap _ _).mpr ⟨hanswers.symm, rfl⟩, hdue,
    (hpop 5).2.1, (hcancel 1).2.2 5, hsleep 2, hsleep 9, ?_, ?_,
    hperm _ _ (List.Perm.swap _ _ _) (by decide) _, answers, s, _, hr, rfl, ?_, htick, hmade⟩
  · cases hb
    decide +kernel
  · cases hb
    decide +kernel
  · cases hb
    decide +kernel

end Broker

end EventBroker
