/-! # First-in first-out queues

A queue that appends at its end and drains from its front, with its length at hand. The view
`Fifo.toList` lists the elements oldest first; each operation has one equation through it.
-/
set_option autoImplicit false

namespace EventBroker

/-- The elements are `front` followed by `back` reversed. -/
structure Fifo (α : Type) where
  front : List α
  back : List α
  size : Nat
  size_eq : size = front.length + back.length

namespace Fifo

variable {α : Type}

def toList (q : Fifo α) : List α := q.front ++ q.back.reverse

def empty : Fifo α := ⟨[], [], 0, rfl⟩

instance : Inhabited (Fifo α) := ⟨empty⟩

def isEmpty (q : Fifo α) : Bool := q.size == 0

def push (q : Fifo α) (a : α) : Fifo α :=
  ⟨q.front, a :: q.back, q.size + 1, by simp [q.size_eq]; omega⟩

def ofList (xs : List α) : Fifo α := ⟨xs, [], xs.length, rfl⟩

def pop? (q : Fifo α) : Option (α × Fifo α) :=
  match h : q.front with
  | a :: rest =>
    some (a, ⟨rest, q.back, q.size - 1, by have := q.size_eq; simp [h] at this; omega⟩)
  | [] =>
    match q.back.reverse with
    | a :: rest => some (a, ofList rest)
    | [] => none

@[simp] theorem toList_empty : (empty : Fifo α).toList = [] := rfl

@[simp] theorem toList_push (q : Fifo α) (a : α) : (q.push a).toList = q.toList ++ [a] := by
  simp [toList, push]

@[simp] theorem toList_ofList (xs : List α) : (ofList xs).toList = xs := by
  simp [toList, ofList]

theorem size_eq_length (q : Fifo α) : q.size = q.toList.length := by
  simp [toList, q.size_eq]

@[simp] theorem isEmpty_iff (q : Fifo α) : q.isEmpty = true ↔ q.toList = [] := by
  rw [isEmpty, beq_iff_eq, size_eq_length, List.length_eq_zero_iff]

theorem pop?_eq_none_iff (q : Fifo α) : q.pop? = none ↔ q.toList = [] := by
  unfold pop? toList
  split
  · rename_i h; simp [h]
  · rename_i h
    split
    · rename_i hb; simp [h, hb]
    · rename_i hb; simp [h, hb]

theorem toList_of_pop? {q q' : Fifo α} {a : α} (h : q.pop? = some (a, q')) :
    q.toList = a :: q'.toList := by
  unfold pop? at h
  split at h
  · rename_i hf
    obtain ⟨rfl, rfl⟩ := by simpa using h
    simp [toList, hf]
  · rename_i hf
    split at h
    · rename_i hb
      obtain ⟨rfl, rfl⟩ := by simpa using h
      simp [toList, hf, hb, ofList]
    · simp at h

end Fifo

end EventBroker
