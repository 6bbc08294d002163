import EventBroker.Proofs.AgendaHistory
import Mathlib.Data.Multiset.Filter

/-! # Heaps of rules

A heap keeps rules without an order among all of them: it only has a first one on top. Rules are
pushed one by one, and the top is taken off as long as it is due. How a heap lays its rules out does
not matter here, so it is a multiset, and any rule that nothing goes before may lie on top. Whatever
calls a heap serves, its answers and what it holds are those of an agenda.
-/
set_option autoImplicit false

namespace EventBroker

open Agenda (Call Answer)

structure RuleHeap where
  rules : Multiset ArmedRule
  nextOrder : Nat

namespace RuleHeap

def empty : RuleHeap := ⟨0, 0⟩

def push (h : RuleHeap) (event : ScheduledEvent) (occurrence : Nat × Nat) : RuleHeap :=
  ⟨⟨occurrence.2, h.nextOrder, occurrence.1, event⟩ ::ₘ h.rules, h.nextOrder + 1⟩

/-- A rule that may lie on top: it goes before every other one. -/
def Top (h : RuleHeap) (r : ArmedRule) : Prop := r ∈ h.rules ∧ ∀ r' ∈ h.rules, r.le r' = true

def takeOut (h : RuleHeap) (r : ArmedRule) : RuleHeap := ⟨h.rules.erase r, h.nextOrder⟩

/-- The heap looks at its top and takes it as long as it is due. -/
inductive Pops (now : Nat) : RuleHeap → List ArmedRule → RuleHeap → Prop
  | stop {h : RuleHeap} (late : ∀ r, h.Top r → now < r.fireAt) : Pops now h [] h
  | take {h h' : RuleHeap} {r : ArmedRule} {due : List ArmedRule} (top : h.Top r)
      (isDue : r.fireAt ≤ now) (rest : Pops now (h.takeOut r) due h') : Pops now h (r :: due) h'

/-- Throws out every rule for a target, wherever it lies. -/
def cancel (h : RuleHeap) (target : Nat) : Nat × RuleHeap :=
  let kept := h.rules.filter (·.target ≠ target)
  (h.rules.card - kept.card, ⟨kept, h.nextOrder⟩)

inductive Serves : RuleHeap → Call → Answer → RuleHeap → Prop
  | arm (h : RuleHeap) (event : ScheduledEvent) (occurrences : List (Nat × Nat)) :
      Serves h (.arm event occurrences) (.count occurrences.length)
        (occurrences.foldl (·.push event ·) h)
  | cancel (h : RuleHeap) (target : Nat) :
      Serves h (.cancel target) (.count (h.cancel target).1) (h.cancel target).2
  | popDue {h h' : RuleHeap} {now : Nat} {due : List ArmedRule} (pops : Pops now h due h') :
      Serves h (.popDue now) (.due due) h'

inductive Run : RuleHeap → List Call → List Answer → RuleHeap → Prop
  | nil (h : RuleHeap) : Run h [] [] h
  | cons {h h' h'' : RuleHeap} {c : Call} {a : Answer} {later : List Call} {answers : List Answer}
      (head : Serves h c a h') (tail : Run h' later answers h'') :
      Run h (c :: later) (a :: answers) h''

end RuleHeap

namespace Agenda

/-- The heap of an agenda's rules. -/
def heap (a : Agenda) : RuleHeap := ⟨a.rules, a.nextOrder⟩

/-! ## What each call does -/

theorem heap_foldl_push (event : ScheduledEvent) (occurrences : List (Nat × Nat)) (h : RuleHeap) :
    occurrences.foldl (·.push event ·) h =
      ⟨h.rules + number event h.nextOrder occurrences, h.nextOrder + occurrences.length⟩ := by
  induction occurrences generalizing h with
  | nil => simp [number]
  | cons o rest ih =>
    have hcons : number event h.nextOrder (o :: rest) =
        ⟨o.2, h.nextOrder, o.1, event⟩ :: number event (h.nextOrder + 1) rest := rfl
    rw [List.foldl_cons, ih, hcons, RuleHeap.mk.injEq, RuleHeap.push]
    refine ⟨?_, by simp only [List.length_cons]; omega⟩
    rw [← Multiset.cons_coe, Multiset.add_cons, Multiset.cons_add]

theorem heap_arm (a : Agenda) (event : ScheduledEvent) (occurrences : List (Nat × Nat)) :
    occurrences.foldl (·.push event ·) a.heap = (a.arm event occurrences).heap := by
  rw [heap_foldl_push, heap, heap, Multiset.coe_add]
  exact congrArg (RuleHeap.mk · _) (Multiset.coe_eq_coe.mpr (arm_perm a event occurrences).symm)

theorem heap_cancel (a : Agenda) (target : Nat) :
    a.heap.cancel target = ((a.cancel target).1, (a.cancel target).2.heap) := by
  have hk : (a.rules.filter fun r => decide (r.target ≠ target)) =
      a.rules.filter fun r => r.target != target :=
    List.filter_congr fun r _ => by rw [Bool.eq_iff_iff]; simp
  simp only [RuleHeap.cancel, heap, Multiset.filter_coe, Multiset.coe_card, Agenda.cancel, hk]

/-- On top lies the first rule. -/
theorem Ordered.top_iff {a : Agenda} (h : a.Ordered) {r : ArmedRule} :
    a.heap.Top r ↔ a.rules.head? = some r := by
  have hs := h.strict
  unfold RuleHeap.Top heap
  cases ha : a.rules with
  | nil => simp
  | cons first rest =>
    rw [ha, List.pairwise_cons] at hs
    simp only [Multiset.mem_coe, List.head?_cons, Option.some.injEq]
    constructor
    · rintro ⟨hr, hle⟩
      rcases List.mem_cons.mp hr with rfl | hr
      · rfl
      · have hb := hs.1 r hr
        have hl := hle first List.mem_cons_self
        rw [ArmedRule.le_iff] at hl
        unfold ArmedRule.Before at hb
        omega
    · rintro rfl
      refine ⟨List.mem_cons_self, fun r' hr' => ?_⟩
      rw [ArmedRule.le_iff]
      rcases List.mem_cons.mp hr' with rfl | hr'
      · exact .inr ⟨rfl, Nat.le_refl _⟩
      · rcases hs.1 r' hr' with hb | ⟨he, hb⟩
        · exact .inl hb
        · exact .inr ⟨he, Nat.le_of_lt hb⟩

/-- However a heap is laid out, it gives up just what an agenda does. -/
theorem Ordered.pops_iff {a : Agenda} (h : a.Ordered) (now : Nat) (due : List ArmedRule)
    (h' : RuleHeap) :
    RuleHeap.Pops now a.heap due h' ↔ due = (a.popDue now).1 ∧ h' = (a.popDue now).2.heap := by
  obtain ⟨rules, n⟩ := a
  induction rules generalizing due with
  | nil =>
    constructor
    · intro hp
      cases hp with
      | stop late => exact ⟨rfl, rfl⟩
      | take top _ _ => exact absurd (h.top_iff.mp top) (by simp)
    · rintro ⟨rfl, rfl⟩
      exact .stop fun r top => absurd (h.top_iff.mp top) (by simp)
  | cons first rest ih =>
    have htop : (Agenda.mk (first :: rest) n).heap.Top first := h.top_iff.mpr rfl
    have hrest : (Agenda.mk rest n).Ordered := h.sublist (List.sublist_cons_self _ _) rfl
    have hout : (Agenda.mk (first :: rest) n).heap.takeOut first = (Agenda.mk rest n).heap := by
      simp [RuleHeap.takeOut, heap]
    by_cases hdue : first.fireAt ≤ now
    · have hpop : (Agenda.mk (first :: rest) n).popDue now =
          (first :: ((Agenda.mk rest n).popDue now).1, ((Agenda.mk rest n).popDue now).2) := by
        simp [Agenda.popDue, List.takeWhile_cons_of_pos, hdue]
      rw [hpop]
      constructor
      · intro hp
        cases hp with
        | stop late => exact absurd (late first htop) (by omega)
        | take top _ more =>
          obtain rfl := Option.some.inj (h.top_iff.mp top)
          rw [hout, ih _ hrest] at more
          exact ⟨congrArg _ more.1, more.2⟩
      · rintro ⟨rfl, rfl⟩
        exact .take htop hdue (hout ▸ (ih _ hrest).mpr ⟨rfl, rfl⟩)
    · have hpop : (Agenda.mk (first :: rest) n).popDue now = ([], ⟨first :: rest, n⟩) := by
        simp [Agenda.popDue, hdue]
      rw [hpop]
      constructor
      · intro hp
        cases hp with
        | stop late => exact ⟨rfl, rfl⟩
        | take top isDue _ =>
          obtain rfl := Option.some.inj (h.top_iff.mp top)
          exact absurd isDue hdue
      · rintro ⟨rfl, rfl⟩
        refine .stop fun r top => ?_
        obtain rfl := Option.some.inj (h.top_iff.mp top)
        omega

/-! ## What a history does -/

theorem Ordered.serves_iff {a : Agenda} (h : a.Ordered) (c : Call) (answer : Answer)
    (h' : RuleHeap) :
    RuleHeap.Serves a.heap c answer h' ↔ answer = (a.call c).1 ∧ h' = (a.call c).2.heap := by
  cases c with
  | arm event occurrences =>
    simp only [Agenda.call, ← heap_arm]
    constructor
    · rintro ⟨⟩
      exact ⟨rfl, rfl⟩
    · rintro ⟨rfl, rfl⟩
      exact .arm _ _ _
  | cancel target =>
    constructor
    · rintro ⟨⟩
      rw [heap_cancel]
      exact ⟨rfl, rfl⟩
    · rintro ⟨rfl, rfl⟩
      have hs := RuleHeap.Serves.cancel a.heap target
      rwa [heap_cancel] at hs
  | popDue now =>
    constructor
    · rintro ⟨⟩
      next due hp =>
        obtain ⟨rfl, rfl⟩ := (h.pops_iff now due h').mp hp
        exact ⟨rfl, rfl⟩
    · rintro ⟨rfl, rfl⟩
      exact .popDue ((h.pops_iff now _ _).mpr ⟨rfl, rfl⟩)

/-- A heap can serve every history, and serves it as an agenda does. -/
theorem Ordered.run_iff {a : Agenda} (h : a.Ordered) (calls : List Call) (answers : List Answer)
    (h' : RuleHeap) :
    RuleHeap.Run a.heap calls answers h' ↔
      answers = a.answers calls ∧ h' = (a.after calls).heap := by
  induction calls generalizing a answers with
  | nil =>
    constructor
    · rintro ⟨⟩
      exact ⟨rfl, rfl⟩
    · rintro ⟨rfl, rfl⟩
      exact .nil _
  | cons c later ih =>
    constructor
    · intro hr
      cases hr with
      | cons head tail =>
        obtain ⟨rfl, rfl⟩ := (h.serves_iff c _ _).mp head
        obtain ⟨rfl, rfl⟩ := (ih (h.call c) _).mp tail
        exact ⟨rfl, rfl⟩
    · rintro ⟨rfl, rfl⟩
      exact .cons ((h.serves_iff c _ _).mpr ⟨rfl, rfl⟩) ((ih (h.call c) _).mpr ⟨rfl, rfl⟩)

end Agenda

end EventBroker
