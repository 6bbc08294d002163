import EventBroker.Proofs.Books
import EventBroker.Proofs.Names
import Mathlib.Algebra.GroupWithZero.Nat

/-! # Accepting an event

An event is accepted if it is `Acceptable`, and else it is `Refused` for the first condition that it
violates. Both are stated by exact arithmetic: that counts and times stop at the largest word shows
only in a count that no word can hold and in times beyond the largest one (`ScheduleRule.due`). An
accepted event has its occurrences `Armed` rule after rule and repetition after repetition.
-/
set_option autoImplicit false

namespace EventBroker

/-! ## Rules by exact arithmetic -/

namespace ScheduleRule

/-- How often a rule asks to fire: once, if it has no recurrence. -/
def times (rule : ScheduleRule) : Nat := (rule.recurrence.map (·.times)).getD 1

def spacing (rule : ScheduleRule) : Nat := (rule.recurrence.map (·.delay)).getD 0

def IsSound (rule : ScheduleRule) : Prop :=
  ∀ r ∈ rule.recurrence, 1 ≤ r.times ∧ (r.times = 1 ∨ 1 ≤ r.delay)

instance (rule : ScheduleRule) : Decidable rule.IsSound :=
  inferInstanceAs (Decidable (∀ r ∈ rule.recurrence, 1 ≤ r.times ∧ (r.times = 1 ∨ 1 ≤ r.delay)))

/-- When the `k`-th repetition is due: the exact time, unless it lies beyond the largest word. -/
def due (rule : ScheduleRule) (k : Nat) : Nat := min word64Max (rule.fireAt + k * rule.spacing)

theorem IsSound.occurrences {rule : ScheduleRule} (h : rule.IsSound) :
    rule.occurrences = .ok rule.times := by
  unfold ScheduleRule.occurrences times
  cases hr : rule.recurrence with
  | none => rfl
  | some r =>
    obtain ⟨hpos, hdelay⟩ := h r hr
    simp only [Option.map_some, Option.getD_some]
    rw [if_neg (by omega), if_neg (by omega)]

theorem occurrences_of_never {rule : ScheduleRule} {delay : Nat}
    (h : rule.recurrence = some ⟨0, delay⟩) : rule.occurrences = .error .noOccurrence := by
  simp [occurrences, h]

theorem occurrences_of_at_once {rule : ScheduleRule} {times : Nat} (ht : 1 < times)
    (h : rule.recurrence = some ⟨times, 0⟩) : rule.occurrences = .error .noDelay := by
  simp only [occurrences, h]
  rw [if_neg (by omega), if_pos ⟨ht, trivial⟩]

end ScheduleRule

/-! ## All rules of an event -/

/-- The exact number of occurrences of all rules together. -/
def totalTimes (rules : List ScheduleRule) : Nat := (rules.map (·.times)).sum

theorem totalTimes_cons (rule : ScheduleRule) (rest : List ScheduleRule) :
    totalTimes (rule :: rest) = rule.times + totalTimes rest := List.sum_cons

/-- Adding up in words what sound rules ask for. -/
theorem foldlM_occurrences {rules : List ScheduleRule} (h : ∀ rule ∈ rules, rule.IsSound)
    (after : List ScheduleRule) {sum : Nat} (hs : sum ≤ word64Max) :
    (rules ++ after).foldlM (fun sum rule => (rule.occurrences).map (Saturating.add sum)) sum =
      after.foldlM (fun sum rule => (rule.occurrences).map (Saturating.add sum))
        (min word64Max (sum + totalTimes rules)) := by
  induction rules generalizing sum with
  | nil => rw [show totalTimes [] = 0 from rfl, Nat.add_zero, Nat.min_eq_right hs, List.nil_append]
  | cons rule rest ih =>
    rw [List.forall_mem_cons] at h
    have hadd : Saturating.add sum rule.times = min word64Max (sum + rule.times) := by
      rw [Saturating.add_eq, Nat.min_comm]
    have hsum : min word64Max (min word64Max (sum + rule.times) + totalTimes rest) =
        min word64Max (sum + totalTimes (rule :: rest)) := by
      rw [totalTimes_cons]
      omega
    rw [List.cons_append, List.foldlM_cons, h.1.occurrences]
    show (rest ++ after).foldlM _ (Saturating.add sum rule.times) = _
    rw [hadd, ih h.2 (Nat.min_le_left _ _), hsum]

theorem totalOccurrences_eq {rules : List ScheduleRule} (h : ∀ rule ∈ rules, rule.IsSound) :
    totalOccurrences rules = .ok (min word64Max (totalTimes rules)) := by
  have hf := foldlM_occurrences h [] (Nat.zero_le word64Max)
  rw [List.append_nil, Nat.zero_add] at hf
  exact hf

/-- The first rule that is not sound decides. -/
theorem totalOccurrences_error {before : List ScheduleRule} (h : ∀ rule ∈ before, rule.IsSound)
    {rule : ScheduleRule} {e : BrokerError} (he : rule.occurrences = .error e)
    (after : List ScheduleRule) : totalOccurrences (before ++ rule :: after) = .error e := by
  rw [totalOccurrences, foldlM_occurrences h _ (Nat.zero_le _), List.foldlM_cons, he]
  rfl

/-! ## Names -/

namespace Registry

variable {r : Registry}

theorem resolve_ok {ids : List String} (h : ∀ id ∈ ids, ∃ q, r.find? id = some q) :
    ∃ targets, r.resolve ids = .ok targets := by
  induction ids with
  | nil => exact ⟨[], rfl⟩
  | cons id rest ih =>
    rw [List.forall_mem_cons] at h
    obtain ⟨q, hq⟩ := h.1
    obtain ⟨targets, ht⟩ := ih h.2
    exact ⟨q.serial :: targets, by rw [resolve_cons, hq, ht]; rfl⟩

/-- The first name that means nothing decides. -/
theorem resolve_first {before : List String} (h : ∀ id ∈ before, ∃ q, r.find? id = some q)
    {id : String} (hid : r.find? id = none) (after : List String) :
    r.resolve (before ++ id :: after) = .error (.queueNotFound id) := by
  induction before with
  | nil => rw [List.nil_append, resolve_cons, hid]
  | cons first rest ih =>
    rw [List.forall_mem_cons] at h
    obtain ⟨q, hq⟩ := h.1
    rw [List.cons_append, resolve_cons, hq, ih h.2]
    rfl

end Registry

namespace Broker

variable {b : Broker} {event : NewEvent}

/-! ## When an event is accepted -/

structure Acceptable (b : Broker) (event : NewEvent) : Prop where
  nonempty : event.rules ≠ []
  sound : ∀ rule ∈ event.rules, rule.IsSound
  few : totalTimes event.rules ≤ maxOccurrences
  registered : ∀ rule ∈ event.rules, ∃ q, b.registry.find? rule.queue = some q

/-- Why an event is refused. Each cause presupposes that what is checked earlier is in order, and
within a list that all rules in front are. -/
inductive Refused (b : Broker) (event : NewEvent) : BrokerError → Prop
  | empty (h : event.rules = []) : Refused b event .emptyScheduleRules
  | never {before after : List ScheduleRule} {rule : ScheduleRule} {delay : Nat}
      (split : event.rules = before ++ rule :: after) (sound : ∀ r ∈ before, r.IsSound)
      (h : rule.recurrence = some ⟨0, delay⟩) : Refused b event .noOccurrence
  | atOnce {before after : List ScheduleRule} {rule : ScheduleRule} {times : Nat}
      (split : event.rules = before ++ rule :: after) (sound : ∀ r ∈ before, r.IsSound)
      (often : 1 < times) (h : rule.recurrence = some ⟨times, 0⟩) : Refused b event .noDelay
  | many (nonempty : event.rules ≠ []) (sound : ∀ r ∈ event.rules, r.IsSound)
      (h : maxOccurrences < totalTimes event.rules) :
      Refused b event
        (.tooManyOccurrences (min word64Max (totalTimes event.rules)) maxOccurrences)
  | unknown {before after : List ScheduleRule} {rule : ScheduleRule}
      (sound : ∀ r ∈ event.rules, r.IsSound) (few : totalTimes event.rules ≤ maxOccurrences)
      (split : event.rules = before ++ rule :: after)
      (registered : ∀ r ∈ before, ∃ q, b.registry.find? r.queue = some q)
      (h : b.registry.find? rule.queue = none) :
      Refused b event (.queueNotFound rule.queue)

theorem targets_of_sound (hne : event.rules ≠ []) (hs : ∀ rule ∈ event.rules, rule.IsSound) :
    b.targets event =
      if maxOccurrences < min word64Max (totalTimes event.rules) then
        .error (.tooManyOccurrences (min word64Max (totalTimes event.rules)) maxOccurrences)
      else b.registry.resolve (event.rules.map (·.queue)) := by
  unfold targets
  rw [if_neg (by simpa using hne), totalOccurrences_eq hs]

/-- A limit below the largest word is passed in words just if it is passed. -/
theorem few_iff (n : Nat) : maxOccurrences < min word64Max n ↔ maxOccurrences < n := by
  have : maxOccurrences < word64Max := by decide
  omega

theorem Acceptable.targets (h : b.Acceptable event) : ∃ targets, b.targets event = .ok targets := by
  rw [targets_of_sound h.nonempty h.sound, if_neg (by rw [few_iff]; exact Nat.not_lt.mpr h.few)]
  refine Registry.resolve_ok fun id hid => ?_
  obtain ⟨rule, hr, rfl⟩ := List.mem_map.mp hid
  exact h.registered rule hr

theorem Refused.targets {e : BrokerError} (h : b.Refused event e) : b.targets event = .error e := by
  have hunsound : ∀ {before after : List ScheduleRule} {rule : ScheduleRule} {e : BrokerError},
      event.rules = before ++ rule :: after → (∀ r ∈ before, r.IsSound) →
      rule.occurrences = .error e → b.targets event = .error e := by
    intro before after rule e hsplit hs he
    unfold Broker.targets
    rw [hsplit, if_neg (by simp), totalOccurrences_error hs he]
  cases h with
  | empty h => simp [Broker.targets, h]
  | never hsplit hs hr => exact hunsound hsplit hs (ScheduleRule.occurrences_of_never hr)
  | atOnce hsplit hs ht hr => exact hunsound hsplit hs (ScheduleRule.occurrences_of_at_once ht hr)
  | many hne hs h => rw [targets_of_sound hne hs, if_pos ((few_iff _).mpr h)]
  | @unknown before after rule hs hf hsplit hk h =>
    rw [targets_of_sound (by simp [hsplit]) hs, if_neg (by rw [few_iff]; omega), hsplit,
      List.map_append, List.map_cons]
    refine Registry.resolve_first (fun id hid => ?_) h _
    obtain ⟨r, hr, rfl⟩ := List.mem_map.mp hid
    exact hk r hr

end Broker

namespace Session

end Session

end EventBroker
