import EventBroker.SlotTable
import Mathlib.Data.List.Nodup

/-! # Slot tables by their slots

`SlotTable.get?` is the view of a table: which value stands in which slot. A table is `Sound` if its
vacant slots are listed once each. Then a value is inserted into a slot that was vacant, and no
other slot changes.
-/
set_option autoImplicit false

namespace EventBroker.SlotTable

variable {α : Type} {t : SlotTable α}

structure Sound (t : SlotTable α) : Prop where
  nodup : t.vacant.Nodup
  vacant_iff : ∀ i, i ∈ t.vacant ↔ t.slots[i]? = some none

theorem Sound.empty : (SlotTable.empty : SlotTable α).Sound :=
  ⟨List.nodup_nil, fun i => by simp [SlotTable.empty]⟩

theorem get?_eq_some_iff {i : Nat} {a : α} : t.get? i = some a ↔ t.slots[i]? = some (some a) := by
  rw [get?]
  cases t.slots[i]? <;> simp

/-! ## Inserting -/

theorem Sound.get?_insert_self (h : t.Sound) (a : α) : t.get? (t.insert a).1 = none := by
  unfold insert get?
  split
  · next slot rest hv =>
    have hn := (h.vacant_iff slot).mp (hv ▸ List.mem_cons_self)
    simp only [hn, Option.join_some]
  · simp

theorem Sound.get?_insert (h : t.Sound) (a : α) (i : Nat) :
    (t.insert a).2.get? i = if i = (t.insert a).1 then some a else t.get? i := by
  unfold insert
  split
  · next slot rest hv =>
    have hlt : slot < t.slots.length :=
      (List.getElem?_eq_some_iff.mp ((h.vacant_iff slot).mp (hv ▸ List.mem_cons_self))).1
    simp only [get?, List.getElem?_set]
    by_cases hi : i = slot
    · subst hi
      simp [hlt]
    · simp [hi, Ne.symm hi]
  · simp only [get?]
    rcases Nat.lt_trichotomy i t.slots.length with hi | rfl | hi
    · rw [List.getElem?_append_left hi, if_neg (by omega)]
    · simp
    · rw [if_neg (by omega), List.getElem?_eq_none (by simp; omega),
        List.getElem?_eq_none (by omega)]

theorem Sound.insert (h : t.Sound) (a : α) : (t.insert a).2.Sound := by
  unfold SlotTable.insert
  split
  · next slot rest hv =>
    have hn := h.nodup
    rw [hv, List.nodup_cons] at hn
    refine ⟨hn.2, fun i => ?_⟩
    have hi := h.vacant_iff i
    rw [hv, List.mem_cons] at hi
    simp only [List.getElem?_set]
    by_cases he : slot = i
    · subst he
      simp [hn.1]
    · rw [if_neg he, ← hi]
      simp [Ne.symm he]
  · next hv =>
    refine ⟨List.nodup_nil, fun i => ?_⟩
    have hi := h.vacant_iff i
    rw [hv] at hi
    simp only [List.not_mem_nil, false_iff] at hi ⊢
    rcases Nat.lt_trichotomy i t.slots.length with hlt | rfl | hlt
    · rwa [List.getElem?_append_left hlt]
    · simp
    · simp [List.getElem?_eq_none (show (t.slots ++ [some a]).length ≤ i by simp; omega)]

/-! ## Removing -/

theorem get?_remove {slot : Nat} {a : α} (ha : t.get? slot = some a) (i : Nat) :
    (t.remove slot).get? i = if i = slot then none else t.get? i := by
  have hlt : slot < t.slots.length :=
    (List.getElem?_eq_some_iff.mp (get?_eq_some_iff.mp ha)).1
  simp only [remove, ha]
  simp only [get?, List.getElem?_set]
  by_cases hi : i = slot
  · subst hi
    simp [hlt]
  · simp [hi, Ne.symm hi]

theorem Sound.remove (h : t.Sound) {slot : Nat} {a : α} (ha : t.get? slot = some a) :
    (t.remove slot).Sound := by
  have hs := get?_eq_some_iff.mp ha
  have hlt : slot < t.slots.length := (List.getElem?_eq_some_iff.mp hs).1
  have hnot : slot ∉ t.vacant := by
    rw [h.vacant_iff, hs]
    simp
  simp only [SlotTable.remove, ha]
  refine ⟨List.nodup_cons.mpr ⟨hnot, h.nodup⟩, fun i => ?_⟩
  rw [List.mem_cons, h.vacant_iff, List.getElem?_set]
  by_cases hi : slot = i
  · subst hi
    simp [hlt]
  · simp [hi, Ne.symm hi]

/-! ## Values -/

theorem mem_values_iff {a : α} : a ∈ t.values ↔ ∃ i, t.get? i = some a := by
  simp only [values, List.mem_filterMap, id_eq, exists_eq_right, get?_eq_some_iff]
  exact List.mem_iff_getElem?

theorem isEmpty_iff : t.isEmpty = true ↔ ∀ i, t.get? i = none := by
  simp only [isEmpty, List.isEmpty_iff, List.eq_nil_iff_forall_not_mem, mem_values_iff,
    not_exists]
  exact ⟨fun h i => Option.eq_none_iff_forall_ne_some.mpr fun a => h a i,
    fun h a i => by simp [h i]⟩

/-- A value that stands in one slot only is listed once. -/
theorem nodup_values (h : ∀ i j a, t.get? i = some a → t.get? j = some a → i = j) :
    t.values.Nodup := by
  rw [values, List.Nodup, List.pairwise_filterMap, List.pairwise_iff_getElem]
  rintro i j hi hj hij a ha b hb rfl
  have hgi := get?_eq_some_iff.mpr ((List.getElem?_eq_getElem hi).trans (congrArg some ha))
  have hgj := get?_eq_some_iff.mpr ((List.getElem?_eq_getElem hj).trans (congrArg some hb))
  exact absurd (h i j a hgi hgj) (Nat.ne_of_lt hij)

end EventBroker.SlotTable
