import EventBroker.Queue
import Mathlib.Data.List.Forall2
import Mathlib.Logic.Function.Iterate

/-! # Incarnations by their serial numbers

`Registry.get?` is the view of a registry: which incarnation has which serial number. Each operation
has one equation through it. A registry is `Numbered` if serial numbers are positions; then the
incarnation that a name means is the one that `get?` finds under its serial number.
-/
set_option autoImplicit false

namespace EventBroker.Registry

def Numbered (r : Registry) : Prop := ∀ t q, r.get? t = some q → q.serial = t

theorem mem_iff_get? {r : Registry} {q : Queue} : q ∈ r.queues ↔ ∃ t, r.get? t = some q :=
  List.mem_iff_getElem?

theorem lt_of_get? {r : Registry} {t : Nat} {q : Queue} (h : r.get? t = some q) :
    t < r.queues.length := (List.getElem?_eq_some_iff.mp h).1

/-! ## Changes -/

theorem get?_update (r : Registry) (serial : Nat) (f : Queue → Queue) (t : Nat) :
    (r.update serial f).get? t = if serial = t then (r.get? t).map f else r.get? t := by
  simp only [get?, update, List.getElem?_modify]
  split <;> simp

@[simp] theorem length_update (r : Registry) (serial : Nat) (f : Queue → Queue) :
    (r.update serial f).queues.length = r.queues.length := by
  simp [update]

theorem Numbered.update {r : Registry} (h : r.Numbered) (serial : Nat) {f : Queue → Queue}
    (hf : ∀ q, (f q).serial = q.serial) : (r.update serial f).Numbered := by
  intro t q hq
  rw [get?_update] at hq
  split at hq
  · obtain ⟨q', hq', rfl⟩ := Option.map_eq_some_iff.mp hq
    rw [hf]
    exact h t q' hq'
  · exact h t q hq

/-- Changes at several serial numbers: each counts as often as it is named. -/
theorem get?_foldl_update (targets : List Nat) (f : Queue → Queue) (r : Registry) (t : Nat) :
    (targets.foldl (fun r s => r.update s f) r).get? t = (r.get? t).map (f^[targets.count t]) := by
  induction targets generalizing r with
  | nil => simp
  | cons s rest ih =>
    rw [List.foldl_cons, ih, get?_update, List.count_cons]
    by_cases h : s = t
    · subst h
      simp [Option.map_map, Function.iterate_succ]
    · simp [h]

theorem length_foldl_update (targets : List Nat) (f : Queue → Queue) (r : Registry) :
    (targets.foldl (fun r s => r.update s f) r).queues.length = r.queues.length := by
  induction targets generalizing r with
  | nil => rfl
  | cons s rest ih => rw [List.foldl_cons, ih, length_update]

theorem get?_foldl_update_nodup {targets : List Nat} (hn : targets.Nodup) (f : Queue → Queue)
    (r : Registry) (t : Nat) :
    (targets.foldl (fun r s => r.update s f) r).get? t =
      if t ∈ targets then (r.get? t).map f else r.get? t := by
  rw [get?_foldl_update, hn.count]
  split <;> simp

theorem of_get?_foldl_update {targets : List Nat} (hn : targets.Nodup) {f : Queue → Queue}
    {r : Registry} {t : Nat} {q' : Queue}
    (h : (targets.foldl (fun r s => r.update s f) r).get? t = some q') :
    ∃ q, r.get? t = some q ∧ q' = if t ∈ targets then f q else q := by
  rw [get?_foldl_update_nodup hn] at h
  split at h
  · next ht =>
    obtain ⟨q, hq, rfl⟩ := Option.map_eq_some_iff.mp h
    exact ⟨q, hq, (if_pos ht).symm⟩
  · next ht => exact ⟨q', h, (if_neg ht).symm⟩

theorem get?_append (r : Registry) (id : String) (t : Nat) :
    (r.append id).get? t =
      if t = r.queues.length then some (Queue.new r.queues.length id) else r.get? t := by
  simp only [get?, append]
  rcases Nat.lt_trichotomy t r.queues.length with h | h | h
  · rw [List.getElem?_append_left h, if_neg (by omega)]
  · subst h
    simp
  · rw [if_neg (by omega), List.getElem?_eq_none (by simp; omega), List.getElem?_eq_none (by omega)]

theorem Numbered.append {r : Registry} (h : r.Numbered) (id : String) : (r.append id).Numbered := by
  intro t q hq
  rw [get?_append] at hq
  split at hq
  · next ht =>
    cases hq
    exact ht.symm
  · exact h t q hq

theorem Numbered.empty : Registry.empty.Numbered := by
  intro t q hq
  simp [get?, Registry.empty] at hq

/-! ## Names -/

theorem find?_spec {r : Registry} {id : String} {q : Queue} (h : r.find? id = some q) :
    q ∈ r.queues ∧ q.retired = false ∧ q.id = id := by
  have hm := List.mem_of_find?_eq_some h
  have hp := List.find?_some h
  simp only [Bool.and_eq_true, Bool.not_eq_true', beq_iff_eq] at hp
  exact ⟨hm, hp.1, hp.2⟩

theorem Numbered.get?_of_find? {r : Registry} (h : r.Numbered) {id : String} {q : Queue}
    (hq : r.find? id = some q) : r.get? q.serial = some q := by
  obtain ⟨t, ht⟩ := mem_iff_get?.mp (find?_spec hq).1
  rw [h t q ht]
  exact ht

theorem resolve_cons (r : Registry) (id : String) (rest : List String) :
    r.resolve (id :: rest) = match r.find? id with
      | some q => (r.resolve rest).map (q.serial :: ·)
      | none => .error (.queueNotFound id) := by
  cases hr : r.resolve rest with
  | error e | ok ts =>
    unfold resolve at hr ⊢
    rw [List.mapM_cons, hr]
    cases r.find? id <;> rfl

/-- Names are refused because of one of them that means nothing. -/
theorem resolve_error {r : Registry} {ids : List String} {e : BrokerError}
    (h : r.resolve ids = .error e) :
    ∃ id ∈ ids, r.find? id = none ∧ e = .queueNotFound id := by
  induction ids with
  | nil => cases h
  | cons id rest ih =>
    rw [resolve_cons] at h
    cases hf : r.find? id with
    | none =>
      rw [hf] at h
      cases h
      exact ⟨id, List.mem_cons_self, hf, rfl⟩
    | some q =>
      rw [hf] at h
      have hrest : r.resolve rest = .error e := by
        cases hr : r.resolve rest with
        | error e' =>
          rw [hr] at h
          exact congrArg Except.error (Except.error.inj h)
        | ok ts =>
          rw [hr] at h
          cases h
      obtain ⟨id', hmem, hnone, he⟩ := ih hrest
      exact ⟨id', List.mem_cons_of_mem _ hmem, hnone, he⟩

/-- Resolving gives the serial number of what each name means, in order. -/
theorem resolve_spec {r : Registry} {ids : List String} {targets : List Nat}
    (h : r.resolve ids = .ok targets) :
    List.Forall₂ (fun id t => ∃ q, r.find? id = some q ∧ q.serial = t) ids targets := by
  induction ids generalizing targets with
  | nil =>
    rw [show r.resolve [] = .ok [] from rfl] at h
    cases h
    exact .nil
  | cons id rest ih =>
    simp only [resolve, List.mapM_cons] at h ih
    cases hf : r.find? id with
    | none => simp [hf, Bind.bind, Except.bind] at h
    | some q =>
      simp only [hf, Bind.bind, Except.bind] at h
      split at h
      · cases h
      · next ts hr =>
        cases h
        exact .cons ⟨q, hf, rfl⟩ (ih hr)

theorem mem_resolve {r : Registry} {ids : List String} {targets : List Nat}
    (h : r.resolve ids = .ok targets) {t : Nat} (ht : t ∈ targets) :
    ∃ id ∈ ids, ∃ q, r.find? id = some q ∧ q.serial = t := by
  have hs := resolve_spec h
  clear h
  induction hs with
  | nil => cases ht
  | cons hq _ ih =>
    rcases List.mem_cons.mp ht with rfl | ht
    · exact ⟨_, List.mem_cons_self, hq⟩
    · obtain ⟨id, hid, hq⟩ := ih ht
      exact ⟨id, List.mem_cons_of_mem _ hid, hq⟩

end EventBroker.Registry
