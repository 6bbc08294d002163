import EventBroker.Proofs.Agenda

/-! # The agenda against its history

A history of an agenda is a list of calls: arming, cancelling and popping in any order. `waiting`
tells from the calls alone which rules are armed at the end of a history, with no word about the
order in which an agenda keeps them. An agenda holds just these rules, sorted.

A rule without its place in the order of arming is a plain one. Two agendas that hold the same plain
rules for each time, in the same order, answer every call alike.
-/
set_option autoImplicit false

namespace EventBroker

namespace ArmedRule

/-- One rule fires before another: it is earlier, or as early and was armed first. -/
def Before (r r' : ArmedRule) : Prop :=
  r.fireAt < r'.fireAt ∨ (r.fireAt = r'.fireAt ∧ r.order < r'.order)

/-- A rule apart from its place in the order of arming. -/
def plain (r : ArmedRule) : Nat × Nat × ScheduledEvent := (r.fireAt, r.target, r.event)

end ArmedRule

namespace Agenda

inductive Call
  | arm (event : ScheduledEvent) (occurrences : List (Nat × Nat))
  | cancel (target : Nat)
  | popDue (now : Nat)

/-- What a call answers: how many rules it armed or cancelled, or the rules that were due. -/
inductive Answer
  | count (rules : Nat)
  | due (rules : List ArmedRule)
  deriving DecidableEq

def call (a : Agenda) : Call → Answer × Agenda
  | .arm event occurrences => (.count occurrences.length, a.arm event occurrences)
  | .cancel target => (.count (a.cancel target).1, (a.cancel target).2)
  | .popDue now => (.due (a.popDue now).1, (a.popDue now).2)

def after (a : Agenda) : List Call → Agenda
  | [] => a
  | c :: later => (a.call c).2.after later

def answers (a : Agenda) : List Call → List Answer
  | [] => []
  | c :: later => (a.call c).1 :: (a.call c).2.answers later

/-- Whether a call takes an armed rule away. -/
def Call.takes : Call → ArmedRule → Bool
  | .arm _ _, _ => false
  | .cancel target, r => r.target == target
  | .popDue now, r => r.fireAt ≤ now

/-- The rules that a history arms and that no later call of it takes away, if `order` rules were
armed before. -/
def waiting (order : Nat) : List Call → List ArmedRule
  | [] => []
  | .arm event occurrences :: later =>
    ((number event order occurrences).filter fun r => later.all (!·.takes r)) ++
      waiting (order + occurrences.length) later
  | .cancel _ :: later => waiting order later
  | .popDue _ :: later => waiting order later

/-! ## Every history leaves an ordered agenda -/

theorem Ordered.call {a : Agenda} (h : a.Ordered) (c : Call) : (a.call c).2.Ordered := by
  cases c with
  | arm event occurrences => exact h.arm event occurrences
  | cancel target => exact h.cancel target
  | popDue now => exact h.popDue now

theorem Ordered.after {a : Agenda} (h : a.Ordered) (calls : List Call) :
    (a.after calls).Ordered := by
  induction calls generalizing a with
  | nil => exact h
  | cons c later ih => exact ih (h.call c)

theorem Ordered.strict {a : Agenda} (h : a.Ordered) : a.rules.Pairwise ArmedRule.Before := by
  have hd : a.rules.Pairwise fun r r' => r.order ≠ r'.order := List.pairwise_map.mp h.distinct
  refine (h.sorted.and hd).imp ?_
  rintro r r' ⟨hle, hne⟩
  rw [ArmedRule.le_iff] at hle
  unfold ArmedRule.Before
  omega

/-- Popping splits the rules by their times alone. -/
theorem Ordered.popDue_eq_filter {a : Agenda} (h : a.Ordered) (now : Nat) :
    (a.popDue now).1 = a.rules.filter (·.fireAt ≤ now) ∧
      (a.popDue now).2.rules = a.rules.filter (now < ·.fireAt) := by
  have hdue : ∀ r ∈ (a.popDue now).1, r.fireAt ≤ now := fun r => fireAt_le_of_mem_due
  have hleft : ∀ r ∈ (a.popDue now).2.rules, now < r.fireAt := fun r => h.lt_of_mem_left
  have hd : (a.popDue now).1.filter (now < ·.fireAt) = [] := by
    simpa [List.filter_eq_nil_iff] using hdue
  have hl : (a.popDue now).2.rules.filter (·.fireAt ≤ now) = [] := by
    simpa [List.filter_eq_nil_iff] using hleft
  have hd' : (a.popDue now).1.filter (·.fireAt ≤ now) = (a.popDue now).1 := by
    simpa [List.filter_eq_self] using hdue
  have hl' : (a.popDue now).2.rules.filter (now < ·.fireAt) = (a.popDue now).2.rules := by
    simpa [List.filter_eq_self] using hleft
  rw [← popDue_append a now, List.filter_append, List.filter_append, hd, hl, hd', hl',
    List.append_nil, List.nil_append]
  exact ⟨rfl, rfl⟩

/-- What a call leaves of the rules that were there. -/
theorem Ordered.call_perm {a : Agenda} (h : a.Ordered) (c : Call) :
    (a.call c).2.rules.Perm (a.rules.filter (!c.takes ·) ++ waiting a.nextOrder [c]) := by
  cases c with
  | arm event occurrences =>
    have hkept : a.rules.filter (!(Call.arm event occurrences).takes ·) = a.rules :=
      List.filter_eq_self.mpr fun _ _ => rfl
    rw [hkept]
    simpa [Agenda.call, waiting] using arm_perm a event occurrences
  | cancel target => simp [Agenda.call, Agenda.cancel, waiting, Call.takes, bne]
  | popDue now =>
    simp only [Agenda.call, (h.popDue_eq_filter now).2, waiting, Call.takes, List.append_nil]
    refine List.Perm.of_eq (List.filter_congr fun r _ => ?_)
    rw [Bool.eq_iff_iff]
    simp

/-- An agenda holds what it held before and no call has taken, and what the history has waiting. -/
theorem Ordered.after_perm {a : Agenda} (h : a.Ordered) (calls : List Call) :
    (a.after calls).rules.Perm
      ((a.rules.filter fun r => calls.all (!·.takes r)) ++ waiting a.nextOrder calls) := by
  induction calls generalizing a with
  | nil => simp [Agenda.after, waiting]
  | cons c later ih =>
    have hc := (h.call_perm c).filter fun r => later.all (!·.takes r)
    rw [List.filter_append, List.filter_filter] at hc
    refine (ih (h.call c)).trans ((hc.append_right _).trans ?_)
    rw [List.append_assoc]
    refine List.Perm.append (List.Perm.of_eq (List.filter_congr fun r _ => ?_)) ?_
    · rw [List.all_cons, Bool.and_comm]
    · cases c with
      | arm event occurrences => simp [Agenda.call, Agenda.arm, waiting]
      | cancel target => simp [Agenda.call, waiting]
      | popDue now => simp [Agenda.call, waiting]

theorem after_empty_perm (calls : List Call) :
    (Agenda.empty.after calls).rules.Perm (waiting 0 calls) := by
  simpa [Agenda.empty] using Ordered.empty.after_perm calls

/-- The first rule has the least time. -/
theorem Ordered.min?_fireAt {a : Agenda} (h : a.Ordered) {l : List ArmedRule}
    (hp : a.rules.Perm l) : (l.map (·.fireAt)).min? = a.rules.head?.map (·.fireAt) := by
  have hs := h.sorted
  cases hr : a.rules with
  | nil =>
    rw [hr] at hp
    rw [List.nil_perm.mp hp]
    rfl
  | cons r rest =>
    rw [hr] at hp hs
    rw [List.head?_cons, Option.map_some, List.min?_eq_some_iff]
    refine ⟨List.mem_map_of_mem (hp.mem_iff.mp List.mem_cons_self), ?_⟩
    intro t ht
    obtain ⟨r', hr', rfl⟩ := List.mem_map.mp ht
    rcases List.mem_cons.mp (hp.mem_iff.mpr hr') with rfl | hr'
    · exact Nat.le_refl _
    · exact ArmedRule.fireAt_le_of_le ((List.pairwise_cons.mp hs).1 r' hr')

/-! ## Agendas with the same plain rules for each time -/

/-- The plain rules for one time, in firing order. -/
def plainAt (a : Agenda) (t : Nat) : List (Nat × Nat × ScheduledEvent) :=
  (a.rules.filter (·.fireAt == t)).map ArmedRule.plain

/-- The plain rules for one time among those that are about to be armed. -/
def newAt (event : ScheduledEvent) (occurrences : List (Nat × Nat)) (t : Nat) :
    List (Nat × Nat × ScheduledEvent) :=
  (occurrences.filter (·.2 == t)).map fun o => (o.2, o.1, event)

theorem plain_number (event : ScheduledEvent) (order : Nat) (occurrences : List (Nat × Nat))
    (t : Nat) :
    ((number event order occurrences).filter (·.fireAt == t)).map ArmedRule.plain =
      newAt event occurrences t := by
  induction occurrences generalizing order with
  | nil => rfl
  | cons o rest ih =>
    have hcons : number event order (o :: rest) =
        ⟨o.2, order, o.1, event⟩ :: number event (order + 1) rest := rfl
    rw [hcons, newAt, List.filter_cons, List.filter_cons]
    split
    · rw [List.map_cons, List.map_cons, ih]
      rfl
    · exact ih (order + 1)

/-- Two sorted lists of rules with the same members are equal if their rules differ in order. -/
theorem eq_of_perm_of_before {l l' : List ArmedRule} (hp : l.Perm l')
    (hl : l.Pairwise ArmedRule.Before) (hl' : l'.Pairwise ArmedRule.Before) : l = l' := by
  refine hp.eq_of_pairwise (fun r r' _ _ h h' => ?_) hl hl'
  unfold ArmedRule.Before at h h'
  omega

/-- Newly armed rules come behind those that are there for the same time. -/
theorem Ordered.plainAt_arm {a : Agenda} (h : a.Ordered) (event : ScheduledEvent)
    (occurrences : List (Nat × Nat)) (t : Nat) :
    (a.arm event occurrences).plainAt t = a.plainAt t ++ newAt event occurrences t := by
  have hnew : (number event a.nextOrder occurrences).Pairwise fun r r' => r.order < r'.order := by
    rw [← List.pairwise_map (f := ArmedRule.order) (R := (· < ·)), map_order_number]
    exact List.pairwise_lt_range'
  have hsplit : (a.arm event occurrences).rules.filter (·.fireAt == t) =
      a.rules.filter (·.fireAt == t) ++
        (number event a.nextOrder occurrences).filter (·.fireAt == t) := by
    apply eq_of_perm_of_before
    · rw [← List.filter_append]
      exact (arm_perm a event occurrences).filter _
    · exact (h.arm event occurrences).strict.sublist List.filter_sublist
    · rw [List.pairwise_append]
      refine ⟨h.strict.sublist List.filter_sublist, ?_, ?_⟩
      · have hs := (hnew.sublist (List.filter_sublist (p := (·.fireAt == t))))
        refine hs.imp_of_mem fun {r r'} hr hr' hlt => ?_
        have hr := List.of_mem_filter hr
        have hr' := List.of_mem_filter hr'
        simp only [beq_iff_eq] at hr hr'
        exact .inr ⟨hr.trans hr'.symm, hlt⟩
      · intro r hr r' hr'
        have hb := h.below r (List.mem_of_mem_filter hr)
        have ho := (order_of_mem_number (List.mem_of_mem_filter hr')).1
        have hr := List.of_mem_filter hr
        have hr' := List.of_mem_filter hr'
        simp only [beq_iff_eq] at hr hr'
        exact .inr ⟨hr.trans hr'.symm, by omega⟩
  rw [plainAt, hsplit, List.map_append, plain_number]
  rfl

theorem plainAt_cancel (a : Agenda) (target t : Nat) :
    (a.cancel target).2.plainAt t = (a.plainAt t).filter fun p => p.2.1 != target := by
  rw [plainAt, plainAt, List.filter_map]
  simp only [Agenda.cancel, List.filter_filter]
  congr 1
  exact List.filter_congr fun r _ => Bool.and_comm _ _

theorem Ordered.plainAt_popDue {a : Agenda} (h : a.Ordered) (now t : Nat) :
    (a.popDue now).2.plainAt t = if t ≤ now then [] else a.plainAt t := by
  rw [plainAt, (h.popDue_eq_filter now).2, List.filter_filter]
  split
  · next ht =>
    rw [List.map_eq_nil_iff, List.filter_eq_nil_iff]
    intro r _
    simp only [Bool.and_eq_true, beq_iff_eq, decide_eq_true_eq]
    omega
  · next ht =>
    refine congrArg (List.map _) (List.filter_congr fun r _ => ?_)
    rw [Bool.eq_iff_iff]
    simp only [Bool.and_eq_true, beq_iff_eq, decide_eq_true_eq]
    omega

/-- A list sorted by a key is determined by what it holds for each key. -/
theorem eq_of_same_fibres {β : Type} (key : β → Nat) {l l' : List β}
    (hl : l.Pairwise fun x y => key x ≤ key y) (hl' : l'.Pairwise fun x y => key x ≤ key y)
    (h : ∀ t, l.filter (key · == t) = l'.filter (key · == t)) : l = l' := by
  induction l generalizing l' with
  | nil =>
    cases l' with
    | nil => rfl
    | cons y rest' =>
      have := h (key y)
      simp at this
  | cons x rest ih =>
    cases l' with
    | nil =>
      have := h (key x)
      simp at this
    | cons y rest' =>
      rw [List.pairwise_cons] at hl hl'
      -- The least key is that of both heads.
      have hxy : key x = key y := by
        have hx : x ∈ (y :: rest').filter (key · == key x) := by
          rw [← h]
          simp
        have hy : y ∈ (x :: rest).filter (key · == key y) := by
          rw [h]
          simp
        have hle : key y ≤ key x := by
          rcases List.mem_cons.mp (List.mem_of_mem_filter hx) with rfl | hx
          · exact Nat.le_refl _
          · exact hl'.1 x hx
        have hge : key x ≤ key y := by
          rcases List.mem_cons.mp (List.mem_of_mem_filter hy) with rfl | hy
          · exact Nat.le_refl _
          · exact hl.1 y hy
        omega
      have hhead := h (key x)
      rw [List.filter_cons_of_pos (by simp), List.filter_cons_of_pos (by simp [hxy])] at hhead
      obtain ⟨rfl, -⟩ := List.cons.inj hhead
      congr 1
      refine ih hl.2 hl'.2 fun t => ?_
      have ht := h t
      by_cases hk : key x = t
      · rw [List.filter_cons_of_pos (by simpa using hk),
          List.filter_cons_of_pos (by simpa using hk)] at ht
        exact (List.cons.inj ht).2
      · rwa [List.filter_cons_of_neg (by simpa using hk),
          List.filter_cons_of_neg (by simpa using hk)] at ht

/-- Agendas that hold the same plain rules for each time hold the same plain rules. -/
theorem Ordered.plain_eq {a a' : Agenda} (h : a.Ordered) (h' : a'.Ordered)
    (he : ∀ t, a.plainAt t = a'.plainAt t) :
    a.rules.map ArmedRule.plain = a'.rules.map ArmedRule.plain := by
  have hs : ∀ {b : Agenda}, b.Ordered →
      (b.rules.map ArmedRule.plain).Pairwise fun p q => p.1 ≤ q.1 := by
    intro b hb
    rw [List.pairwise_map]
    exact hb.sorted.imp fun hle => ArmedRule.fireAt_le_of_le hle
  refine eq_of_same_fibres (·.1) (hs h) (hs h') fun t => ?_
  rw [List.filter_map, List.filter_map]
  exact he t

/-- What can be told from an answer when the places in the order of arming are left out. -/
inductive PlainAnswer
  | count (rules : Nat)
  | due (rules : List (Nat × Nat × ScheduledEvent))
  deriving DecidableEq

def Answer.plain : Answer → PlainAnswer
  | .count n => .count n
  | .due rules => .due (rules.map ArmedRule.plain)

/-- Agendas with the same plain rules give the same plain answer, and keep the same plain rules. -/
theorem Ordered.call_plain {a a' : Agenda} (h : a.Ordered) (h' : a'.Ordered)
    (he : ∀ t, a.plainAt t = a'.plainAt t) (c : Call) :
    (a.call c).1.plain = (a'.call c).1.plain ∧
      ∀ t, (a.call c).2.plainAt t = (a'.call c).2.plainAt t := by
  have hall := h.plain_eq h' he
  cases c with
  | arm event occurrences =>
    refine ⟨rfl, fun t => ?_⟩
    show (a.arm event occurrences).plainAt t = (a'.arm event occurrences).plainAt t
    rw [h.plainAt_arm, h'.plainAt_arm, he t]
  | cancel target =>
    refine ⟨?_, fun t => ?_⟩
    · have hcount : ∀ b : Agenda, aimedAt b.rules target =
          (b.rules.map ArmedRule.plain).countP fun p => p.2.1 == target := by
        intro b
        rw [List.countP_map]
        rfl
      show PlainAnswer.count (a.cancel target).1 = .count (a'.cancel target).1
      rw [cancel_count, cancel_count, hcount, hcount, hall]
    · show (a.cancel target).2.plainAt t = (a'.cancel target).2.plainAt t
      rw [plainAt_cancel, plainAt_cancel, he t]
  | popDue now =>
    refine ⟨?_, fun t => ?_⟩
    · have hdue : ∀ {b : Agenda}, b.Ordered → (b.popDue now).1.map ArmedRule.plain =
          (b.rules.map ArmedRule.plain).filter (·.1 ≤ now) := by
        intro b hb
        rw [(hb.popDue_eq_filter now).1, List.filter_map]
        rfl
      show PlainAnswer.due ((a.popDue now).1.map _) = .due ((a'.popDue now).1.map _)
      rw [hdue h, hdue h', hall]
    · show (a.popDue now).2.plainAt t = (a'.popDue now).2.plainAt t
      rw [h.plainAt_popDue, h'.plainAt_popDue, he t]

theorem Ordered.answers_plain {a a' : Agenda} (h : a.Ordered) (h' : a'.Ordered)
    (he : ∀ t, a.plainAt t = a'.plainAt t) (calls : List Call) :
    (a.answers calls).map Answer.plain = (a'.answers calls).map Answer.plain := by
  induction calls generalizing a a' with
  | nil => rfl
  | cons c later ih =>
    obtain ⟨hanswer, hnext⟩ := h.call_plain h' he c
    rw [answers, answers, List.map_cons, List.map_cons, hanswer, ih (h.call c) (h'.call c) hnext]

end Agenda

end EventBroker
