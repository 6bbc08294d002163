import EventBroker.Proofs.AgendaHistory
import EventBroker.Proofs.Arming
import EventBroker.Proofs.Firing
import EventBroker.Proofs.SessionRuns
import Mathlib.Data.List.Induction

/-! # Splitting and merging ticks

A tick pops what is due and fires it. Firing neither reads nor changes the agenda and does not know
the time of the tick, and popping twice gives, one after the other, what popping once for the later
time gives. So while the clocks stand still, a sequence of ticks does what a single tick for the
latest of their times does.
-/
set_option autoImplicit false

namespace EventBroker

namespace Agenda

/-- What is popped for one time and then for another is what is popped for the later one. -/
theorem Ordered.popDue_merge {a : Agenda} (h : a.Ordered) (n n' : Nat) :
    (a.popDue n).1 ++ ((a.popDue n).2.popDue n').1 = (a.popDue (max n n')).1 ∧
      ((a.popDue n).2.popDue n').2 = (a.popDue (max n n')).2 := by
  have h' := h.popDue n
  have hdue : (a.popDue n).1 ++ ((a.popDue n).2.popDue n').1 = (a.popDue (max n n')).1 := by
    -- Both sides are the rules that are due for the later time, in the same order.
    apply eq_of_perm_of_before
    · rw [(h.popDue_eq_filter n).1, (h'.popDue_eq_filter n').1, (h.popDue_eq_filter n).2,
        (h.popDue_eq_filter (max n n')).1, List.filter_filter]
      have hsplit := List.filter_append_perm (fun r : ArmedRule => decide (r.fireAt ≤ n))
        (a.rules.filter fun r => decide (r.fireAt ≤ max n n'))
      rw [List.filter_filter, List.filter_filter] at hsplit
      refine List.Perm.trans (List.Perm.of_eq ?_) hsplit
      congr 1
      all_goals
        refine List.filter_congr fun r _ => ?_
        rw [Bool.eq_iff_iff]
        simp
        omega
    · refine h.strict.sublist ?_
      rw [← popDue_append a n]
      exact (List.Sublist.refl _).append (due_sublist _ n')
    · exact h.strict.sublist (due_sublist _ _)
  have hleft : ((a.popDue n).2.popDue n').2.rules = (a.popDue (max n n')).2.rules := by
    have hall := popDue_append a n
    rw [← popDue_append (a.popDue n).2 n', ← List.append_assoc, hdue,
      ← popDue_append a (max n n')] at hall
    exact List.append_cancel_left hall
  refine ⟨hdue, ?_⟩
  calc ((a.popDue n).2.popDue n').2
      = ⟨((a.popDue n).2.popDue n').2.rules, a.nextOrder⟩ := rfl
    _ = (a.popDue (max n n')).2 := by rw [hleft]; rfl

end Agenda

namespace Broker

/-! ## Firing apart from the agenda -/

def withAgenda (b : Broker) (a : Agenda) : Broker := { b with agenda := a }

@[simp] theorem withAgenda_agenda (b : Broker) (a : Agenda) : (b.withAgenda a).agenda = a := rfl

@[simp] theorem withAgenda_withAgenda (b : Broker) (a a' : Agenda) :
    (b.withAgenda a).withAgenda a' = b.withAgenda a' := rfl

theorem updateQueue_withAgenda (b : Broker) (a : Agenda) (serial : Nat) (f : Queue → Queue) :
    (b.withAgenda a).updateQueue serial f = (b.updateQueue serial f).withAgenda a := rfl

theorem offerTo_withAgenda (m : Moment) (event : DeliveredEvent) (b : Broker) (a : Agenda)
    (watcher : Nat) :
    offerTo m event (b.withAgenda a) watcher = (offerTo m event b watcher).withAgenda a := by
  unfold offerTo
  dsimp only [withAgenda]
  split
  · rfl
  · split <;> rfl

theorem foldl_offerTo_withAgenda (m : Moment) (event : DeliveredEvent) (b : Broker) (a : Agenda)
    (watchers : List Nat) :
    watchers.foldl (offerTo m event) (b.withAgenda a) =
      (watchers.foldl (offerTo m event) b).withAgenda a := by
  induction watchers generalizing b with
  | nil => rfl
  | cons w rest ih => rw [List.foldl_cons, offerTo_withAgenda, ih, List.foldl_cons]

theorem deliver_withAgenda (b : Broker) (a : Agenda) (rule : ArmedRule) (q : Queue) (m : Moment) :
    (b.withAgenda a).deliver rule q m = (b.deliver rule q m).withAgenda a := by
  simp only [deliver, updateQueue_withAgenda, foldl_offerTo_withAgenda]
  rfl

/-- Firing takes no notice of what is on the agenda. -/
theorem fire_withAgenda (b : Broker) (a : Agenda) (rule : ArmedRule) (m : Moment) :
    (b.withAgenda a).fire rule m = (b.fire rule m).withAgenda a := by
  unfold fire
  dsimp only
  rw [updateQueue_withAgenda]
  generalize b.updateQueue rule.target (·.subPending 1) = b
  have hreg : (b.withAgenda a).registry = b.registry := rfl
  rw [hreg]
  cases b.registry.get? rule.target with
  | none => rfl
  | some q =>
    dsimp only
    split
    · rfl
    · exact deliver_withAgenda b a rule q m

theorem fires_withAgenda (b : Broker) (a : Agenda) (rules : List ArmedRule) (m : Moment) :
    rules.foldl (fun b rule => b.fire rule m) (b.withAgenda a) =
      (rules.foldl (fun b rule => b.fire rule m) b).withAgenda a := by
  induction rules generalizing b with
  | nil => rfl
  | cons r rest ih => rw [List.foldl_cons, fire_withAgenda, ih, List.foldl_cons]

/-- A tick fires what is due, whatever else is armed. -/
theorem fireDue_eq_fires (b : Broker) (now : Nat) (m : Moment) :
    b.fireDue now m = ((b.agenda.popDue now).1.length,
      ((b.agenda.popDue now).1.foldl (fun b rule => b.fire rule m) b).withAgenda
        (b.agenda.popDue now).2) := by
  rw [← fires_withAgenda]
  rfl

/-! ## Ticks -/

/-- Two ticks do what one tick for the later time does. -/
theorem fireDue_fireDue {b : Broker} (h : b.agenda.Ordered) (n n' : Nat) (m : Moment) :
    ((b.fireDue n m).1 + ((b.fireDue n m).2.fireDue n' m).1, ((b.fireDue n m).2.fireDue n' m).2) =
      b.fireDue (max n n') m := by
  obtain ⟨hdue, hleft⟩ := h.popDue_merge n n'
  rw [fireDue_eq_fires b (max n n'), ← hdue, ← hleft, List.foldl_append, List.length_append,
    fireDue_eq_fires b n, fireDue_eq_fires]
  simp only [withAgenda_agenda, fires_withAgenda, withAgenda_withAgenda]

/-- Ticks one after another while the clocks stand still: how many rules they pop together, and the
broker they leave behind. -/
def ticks (b : Broker) (nows : List Nat) (m : Moment) : Nat × Broker :=
  nows.foldl (fun done now => (done.1 + (done.2.fireDue now m).1, (done.2.fireDue now m).2)) (0, b)

theorem ticks_concat (b : Broker) (nows : List Nat) (now : Nat) (m : Moment) :
    b.ticks (nows ++ [now]) m =
      ((b.ticks nows m).1 + ((b.ticks nows m).2.fireDue now m).1,
        ((b.ticks nows m).2.fireDue now m).2) := by
  rw [ticks, List.foldl_append]
  rfl

/-- A sequence of ticks does what one tick for the latest of its times does. -/
theorem ticks_eq_fireDue {b : Broker} (h : b.agenda.Ordered) (first : Nat) (rest : List Nat)
    (m : Moment) : b.ticks (first :: rest) m = b.fireDue (rest.foldl max first) m := by
  induction rest using List.reverseRecOn with
  | nil => simp [ticks]
  | append_singleton rest now ih =>
    rw [← List.cons_append, ticks_concat, ih, fireDue_fireDue h, List.foldl_append]
    rfl

/-! ## Every reachable broker -/

theorem perform_ordered {b : Broker} (h : b.agenda.Ordered) (d : Deed) :
    (b.perform d).agenda.Ordered := by
  by_cases hd : d.action.isDrop = true
  · obtain ⟨m, action⟩ := d
    cases action with
    | drop => exact Agenda.Ordered.empty
    | _ => cases hd
  · exact (perform_succeeds b (by simpa using hd)).ordered h

end Broker

namespace Session

theorem Reachable.ordered {s : Session} (h : s.Reachable) : s.broker.agenda.Ordered := by
  obtain ⟨supply, settings, b, m, steps, answers, hb, hr⟩ := h
  have hl : (Session.new supply b m).broker.Linked := Broker.Linked.new hb
  rw [run_replays hl hr]
  have hnew : b.agenda.Ordered := by
    rw [Broker.new_eq hb]
    exact Agenda.Ordered.empty
  exact Broker.replay_induction (P := fun b => b.agenda.Ordered)
    (fun _ d h => Broker.perform_ordered h d) hnew _

/-- Ticks may be split and merged. In every reachable state, two ticks leave the very broker that
one tick for the later of their times leaves, and pop as many rules together; so does any sequence
of ticks and one tick for the latest of their times. -/
theorem ticks_merge {s : Session} (hs : s.Reachable) (m : Moment) :
    (∀ n n' : Nat,
      (s.broker.fireDue n m).1 + ((s.broker.fireDue n m).2.fireDue n' m).1 =
        (s.broker.fireDue (max n n') m).1 ∧
      ((s.broker.fireDue n m).2.fireDue n' m).2 = (s.broker.fireDue (max n n') m).2) ∧
    ∀ (first : Nat) (rest : List Nat),
      s.broker.ticks (first :: rest) m = s.broker.fireDue (rest.foldl max first) m := by
  refine ⟨fun n n' => ?_, fun first rest => Broker.ticks_eq_fireDue hs.ordered first rest m⟩
  have hmerge := Broker.fireDue_fireDue hs.ordered n n' m
  exact ⟨congrArg (·.1) hmerge, congrArg (·.2) hmerge⟩

/-- A full channel, and an event that is lost at the second of two ticks or at the only one. -/
theorem ticks_merge_once : ∃ b answers s,
    Broker.new ⟨4, 1, 250⟩ = .ok b ∧
    (Session.new .counting b ⟨0, 0⟩).run [.createQueue "jobs",
      .createChannel ["jobs"] ⟨1000, 10⟩, .submit ⟨[65], none, [⟨"jobs", 5, none⟩]⟩, .fire (some 5),
      .submit ⟨[66], none, [⟨"jobs", 7, none⟩]⟩] = .ok (answers, s) ∧
    (s.broker.fireDue 6 ⟨0, 0⟩).1 = 0 ∧
    ((s.broker.fireDue 6 ⟨0, 0⟩).2.fireDue 7 ⟨0, 0⟩).1 = 1 ∧
    (s.broker.fireDue 7 ⟨0, 0⟩).2.metrics.overflowDropped = 1 ∧
    ((s.broker.fireDue 6 ⟨0, 0⟩).2.fireDue 7 ⟨0, 0⟩).2 = (s.broker.fireDue 7 ⟨0, 0⟩).2 ∧
    s.broker.ticks [6, 3, 7] ⟨0, 0⟩ = s.broker.fireDue 7 ⟨0, 0⟩ := by
  obtain ⟨b, hb⟩ : ∃ b, Broker.new ⟨4, 1, 250⟩ = .ok b := ⟨_, rfl⟩
  obtain ⟨answers, s, hr, hp⟩ := of_endsWith
    (r := (Session.new .counting b ⟨0, 0⟩).run [.createQueue "jobs",
      .createChannel ["jobs"] ⟨1000, 10⟩, .submit ⟨[65], none, [⟨"jobs", 5, none⟩]⟩, .fire (some 5),
      .submit ⟨[66], none, [⟨"jobs", 7, none⟩]⟩])
    (p := fun _ s => (s.broker.fireDue 6 ⟨0, 0⟩).1 == 0 &&
      (((s.broker.fireDue 6 ⟨0, 0⟩).2.fireDue 7 ⟨0, 0⟩).1 == 1 &&
        (s.broker.fireDue 7 ⟨0, 0⟩).2.metrics.overflowDropped == 1))
    (by cases hb; decide +kernel)
  rw [Bool.and_eq_true, Bool.and_eq_true, beq_iff_eq, beq_iff_eq, beq_iff_eq] at hp
  obtain ⟨htwo, hmany⟩ := ticks_merge ⟨_, _, b, _, _, _, hb, hr⟩ ⟨0, 0⟩
  exact ⟨b, answers, s, hb, hr, hp.1, hp.2.1, hp.2.2, (htwo 6 7).2, hmany 6 [3, 7]⟩

end Session

end EventBroker
