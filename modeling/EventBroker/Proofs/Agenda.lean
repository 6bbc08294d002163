import EventBroker.Agenda
import Mathlib.Data.List.Nodup
import Mathlib.Data.List.TakeWhile

/-! # The order of the agenda

An agenda is `Ordered` if its rules stand in firing order and no two of them have the same place in
the order of arming. Arming, popping and cancelling keep it so. On an ordered agenda popping splits
the rules by their times: what is due goes, everything else stays.
-/
set_option autoImplicit false

namespace EventBroker

/-! ## The firing order -/

theorem ArmedRule.le_iff (a b : ArmedRule) :
    a.le b = true ↔ a.fireAt < b.fireAt ∨ (a.fireAt = b.fireAt ∧ a.order ≤ b.order) := by
  simp [ArmedRule.le]

theorem ArmedRule.le_trans (a b c : ArmedRule) (hab : a.le b = true) (hbc : b.le c = true) :
    a.le c = true := by
  rw [ArmedRule.le_iff] at *
  omega

theorem ArmedRule.le_total (a b : ArmedRule) : (a.le b || b.le a) = true := by
  rw [Bool.or_eq_true, ArmedRule.le_iff, ArmedRule.le_iff]
  omega

theorem ArmedRule.fireAt_le_of_le {a b : ArmedRule} (h : a.le b = true) : a.fireAt ≤ b.fireAt := by
  rw [ArmedRule.le_iff] at h
  omega

namespace Agenda

structure Ordered (a : Agenda) : Prop where
  sorted : a.rules.Pairwise fun r r' => r.le r' = true
  distinct : (a.rules.map (·.order)).Nodup
  below : ∀ r ∈ a.rules, r.order < a.nextOrder

theorem Ordered.empty : Agenda.empty.Ordered :=
  ⟨List.Pairwise.nil, List.nodup_nil, fun _ h => by cases h⟩

/-- Taking rules out leaves the order as it was. -/
theorem Ordered.sublist {a a' : Agenda} (h : a.Ordered) (hs : a'.rules.Sublist a.rules)
    (hn : a'.nextOrder = a.nextOrder) : a'.Ordered where
  sorted := h.sorted.sublist hs
  distinct := h.distinct.sublist (hs.map _)
  below := by
    intro r hr
    rw [hn]
    exact h.below r (hs.subset hr)

theorem Ordered.eq_of_order {a : Agenda} (h : a.Ordered) {r r' : ArmedRule} (hr : r ∈ a.rules)
    (hr' : r' ∈ a.rules) (he : r.order = r'.order) : r = r' :=
  List.inj_on_of_nodup_map h.distinct hr hr' he

/-! ## Arming -/

theorem getElem?_number (event : ScheduledEvent) (order : Nat) (occurrences : List (Nat × Nat))
    (k : Nat) :
    (number event order occurrences)[k]? =
      occurrences[k]?.map fun o => ⟨o.2, order + k, o.1, event⟩ := by
  simp [number, List.getElem?_zipIdx, Function.comp_def]

theorem map_order_number (event : ScheduledEvent) (order : Nat) (occurrences : List (Nat × Nat)) :
    (number event order occurrences).map (·.order) = List.range' order occurrences.length := by
  simp [number, List.map_map, Function.comp_def]

theorem order_of_mem_number {event : ScheduledEvent} {order : Nat} {occurrences : List (Nat × Nat)}
    {r : ArmedRule} (h : r ∈ number event order occurrences) :
    order ≤ r.order ∧ r.order < order + occurrences.length := by
  have hm : r.order ∈ (number event order occurrences).map (·.order) := List.mem_map_of_mem h
  rw [map_order_number, List.mem_range'_1] at hm
  exact hm

theorem arm_perm (a : Agenda) (event : ScheduledEvent) (occurrences : List (Nat × Nat)) :
    (a.arm event occurrences).rules.Perm (a.rules ++ number event a.nextOrder occurrences) :=
  List.mergeSort_perm _ _

theorem mem_arm_iff {a : Agenda} {event : ScheduledEvent} {occurrences : List (Nat × Nat)}
    {r : ArmedRule} :
    r ∈ (a.arm event occurrences).rules ↔
      r ∈ a.rules ∨ r ∈ number event a.nextOrder occurrences := by
  rw [(arm_perm a event occurrences).mem_iff, List.mem_append]

theorem Ordered.arm {a : Agenda} (h : a.Ordered) (event : ScheduledEvent)
    (occurrences : List (Nat × Nat)) : (a.arm event occurrences).Ordered where
  sorted := List.pairwise_mergeSort ArmedRule.le_trans ArmedRule.le_total _
  distinct := by
    rw [((arm_perm a event occurrences).map _).nodup_iff, List.map_append, map_order_number,
      List.nodup_append]
    refine ⟨h.distinct, List.nodup_range', ?_⟩
    intro x hx y hy
    obtain ⟨r, hr, rfl⟩ := List.mem_map.mp hx
    have hr := h.below r hr
    have hy := (List.mem_range'_1.mp hy).1
    omega
  below := by
    intro r hr
    show r.order < a.nextOrder + occurrences.length
    rcases mem_arm_iff.mp hr with hr | hr
    · have := h.below r hr
      omega
    · exact (order_of_mem_number hr).2

/-! ## Popping -/

theorem popDue_due (a : Agenda) (now : Nat) :
    (a.popDue now).1 = a.rules.takeWhile fun r => decide (r.fireAt ≤ now) := rfl

theorem popDue_left (a : Agenda) (now : Nat) :
    (a.popDue now).2.rules = a.rules.dropWhile fun r => decide (r.fireAt ≤ now) := by
  have h := List.takeWhile_append_dropWhile (p := fun r : ArmedRule => decide (r.fireAt ≤ now))
    (l := a.rules)
  calc (a.popDue now).2.rules
      = (a.rules.takeWhile (fun r => decide (r.fireAt ≤ now)) ++
          a.rules.dropWhile fun r => decide (r.fireAt ≤ now)).drop
          (a.rules.takeWhile fun r => decide (r.fireAt ≤ now)).length := by rw [h]; rfl
    _ = a.rules.dropWhile fun r => decide (r.fireAt ≤ now) := List.drop_left

theorem popDue_append (a : Agenda) (now : Nat) :
    (a.popDue now).1 ++ (a.popDue now).2.rules = a.rules := by
  rw [popDue_due, popDue_left]
  exact List.takeWhile_append_dropWhile

@[simp] theorem popDue_nextOrder (a : Agenda) (now : Nat) :
    (a.popDue now).2.nextOrder = a.nextOrder := rfl

theorem fireAt_le_of_mem_due {a : Agenda} {now : Nat} {r : ArmedRule} (h : r ∈ (a.popDue now).1) :
    r.fireAt ≤ now := by
  simpa using List.mem_takeWhile_imp h

theorem mem_of_mem_due {a : Agenda} {now : Nat} {r : ArmedRule} (h : r ∈ (a.popDue now).1) :
    r ∈ a.rules := by
  rw [← popDue_append a now]
  exact List.mem_append_left _ h

theorem mem_of_mem_left {a : Agenda} {now : Nat} {r : ArmedRule}
    (h : r ∈ (a.popDue now).2.rules) : r ∈ a.rules := by
  rw [← popDue_append a now]
  exact List.mem_append_right _ h

/-- What stays is not due: behind the first rule that is not due, all are later. -/
theorem Ordered.lt_of_mem_left {a : Agenda} (h : a.Ordered) {now : Nat} {r : ArmedRule}
    (hr : r ∈ (a.popDue now).2.rules) : now < r.fireAt := by
  have hs := h.sorted
  rw [popDue_left] at hr
  generalize a.rules = rules at hs hr
  induction rules with
  | nil => cases hr
  | cons x rest ih =>
    rw [List.pairwise_cons] at hs
    by_cases hx : x.fireAt ≤ now
    · rw [List.dropWhile_cons_of_pos (by simpa using hx)] at hr
      exact ih hs.2 hr
    · rw [List.dropWhile_cons_of_neg (by simpa using hx)] at hr
      rcases List.mem_cons.mp hr with rfl | hr
      · omega
      · have := ArmedRule.fireAt_le_of_le (hs.1 r hr)
        omega

theorem Ordered.mem_due_iff {a : Agenda} (h : a.Ordered) {now : Nat} {r : ArmedRule} :
    r ∈ (a.popDue now).1 ↔ r ∈ a.rules ∧ r.fireAt ≤ now := by
  constructor
  · exact fun hr => ⟨mem_of_mem_due hr, fireAt_le_of_mem_due hr⟩
  · rintro ⟨hr, hd⟩
    rw [← popDue_append a now, List.mem_append] at hr
    rcases hr with hr | hr
    · exact hr
    · have := h.lt_of_mem_left hr
      omega

theorem Ordered.mem_left_iff {a : Agenda} (h : a.Ordered) {now : Nat} {r : ArmedRule} :
    r ∈ (a.popDue now).2.rules ↔ r ∈ a.rules ∧ now < r.fireAt := by
  constructor
  · exact fun hr => ⟨mem_of_mem_left hr, h.lt_of_mem_left hr⟩
  · rintro ⟨hr, hd⟩
    rw [← popDue_append a now, List.mem_append] at hr
    rcases hr with hr | hr
    · have := fireAt_le_of_mem_due hr
      omega
    · exact hr

theorem left_sublist (a : Agenda) (now : Nat) : (a.popDue now).2.rules.Sublist a.rules :=
  List.drop_sublist _ _

theorem due_sublist (a : Agenda) (now : Nat) : (a.popDue now).1.Sublist a.rules :=
  List.takeWhile_sublist _

theorem Ordered.popDue {a : Agenda} (h : a.Ordered) (now : Nat) : (a.popDue now).2.Ordered :=
  h.sublist (left_sublist a now) rfl

/-! ## Cancelling -/

theorem mem_cancel_iff {a : Agenda} {target : Nat} {r : ArmedRule} :
    r ∈ (a.cancel target).2.rules ↔ r ∈ a.rules ∧ r.target ≠ target := by
  simp [cancel]

@[simp] theorem cancel_nextOrder (a : Agenda) (target : Nat) :
    (a.cancel target).2.nextOrder = a.nextOrder := rfl

theorem Ordered.cancel {a : Agenda} (h : a.Ordered) (target : Nat) : (a.cancel target).2.Ordered :=
  h.sublist (List.filter_sublist) rfl

/-- How many rules aim at an incarnation. -/
def aimedAt (rules : List ArmedRule) (target : Nat) : Nat := rules.countP (·.target == target)

@[simp] theorem aimedAt_nil (target : Nat) : aimedAt [] target = 0 := rfl

theorem aimedAt_cons (r : ArmedRule) (rules : List ArmedRule) (target : Nat) :
    aimedAt (r :: rules) target = aimedAt rules target + if r.target = target then 1 else 0 := by
  simp [aimedAt, List.countP_cons]

theorem aimedAt_append (rules rules' : List ArmedRule) (target : Nat) :
    aimedAt (rules ++ rules') target = aimedAt rules target + aimedAt rules' target :=
  List.countP_append

theorem aimedAt_number (event : ScheduledEvent) (order : Nat) (occurrences : List (Nat × Nat))
    (target : Nat) : aimedAt (number event order occurrences) target =
      (occurrences.map (·.1)).count target := by
  have hm : (number event order occurrences).map (·.target) = occurrences.map (·.1) := by
    simp only [number, List.map_map, Function.comp_def]
    rw [show (fun x : (Nat × Nat) × Nat => x.1.1) = (·.1) ∘ (·.1) from rfl, ← List.map_map,
      List.zipIdx_map_fst]
  rw [← hm, List.count, List.countP_map]
  rfl

theorem cancel_count (a : Agenda) (target : Nat) :
    (a.cancel target).1 = aimedAt a.rules target := by
  have h := List.length_eq_countP_add_countP (l := a.rules) fun r => r.target == target
  have hn : (a.rules.filter fun r => r.target != target).length =
      a.rules.countP fun r => decide ¬ (r.target == target) = true := by
    rw [← List.countP_eq_length_filter]
    apply List.countP_congr
    intro r _
    simp
  simp only [Agenda.cancel, aimedAt, hn]
  omega

theorem aimedAt_cancel (a : Agenda) (target other : Nat) :
    aimedAt (a.cancel target).2.rules other =
      if other = target then 0 else aimedAt a.rules other := by
  simp only [Agenda.cancel, aimedAt, List.countP_filter]
  split
  · next h =>
    subst h
    rw [List.countP_eq_zero]
    intro r _
    simp
  · next h =>
    apply List.countP_congr
    intro r _
    simp only [Bool.and_eq_true, beq_iff_eq, bne_iff_ne, ne_eq, and_iff_left_iff_imp]
    rintro rfl
    exact h

end Agenda

end EventBroker
