/-! # Tables with reused slots

A table keeps each value in a numbered slot. A removed value leaves its slot vacant, and the slot
vacated last is the first to be used again.
-/
set_option autoImplicit false

namespace EventBroker

structure SlotTable (α : Type) where
  slots : List (Option α)
  /-- The vacant slots, the one vacated last in front. -/
  vacant : List Nat

namespace SlotTable

variable {α : Type}

def empty : SlotTable α := ⟨[], []⟩

def get? (t : SlotTable α) (slot : Nat) : Option α := (t.slots[slot]?).join

def values (t : SlotTable α) : List α := t.slots.filterMap id

def insert (t : SlotTable α) (a : α) : Nat × SlotTable α :=
  match t.vacant with
  | slot :: rest => (slot, ⟨t.slots.set slot (some a), rest⟩)
  | [] => (t.slots.length, ⟨t.slots ++ [some a], []⟩)

def remove (t : SlotTable α) (slot : Nat) : SlotTable α :=
  match t.get? slot with
  | some _ => ⟨t.slots.set slot none, slot :: t.vacant⟩
  | none => t

def isEmpty (t : SlotTable α) : Bool := t.values.isEmpty

end SlotTable

end EventBroker
