import EventBroker.Json.Decode
import Mathlib.Data.List.Forall2

/-! # What decoders look at

Two documents are the same to a decoder if it takes the same out of both (`Decoder.Agree`). A
decoder of plain values takes nothing out of arrays and objects and so looks no further than their
outline (`Decoder.Shallow`); a list is decoded item by item (`list_eq_ok_iff`). What is not looked
at is passed over, which goes wrong only where the text could not be followed.
-/
set_option autoImplicit false

namespace EventBroker.Json

/-- Two documents are the same to a decoder: it takes the same value out of both, or none. -/
def Decoder.Agree {α : Type} (decode : Decoder α) (d d' : Document) : Prop :=
  ∀ a, decode d = .ok a ↔ decode d' = .ok a

theorem map_eq_ok_iff {α β : Type} {x : Decoded α} {f : α → β} {b : β} :
    x.map f = .ok b ↔ ∃ a, x = .ok a ∧ f a = b := by
  cases x with
  | error e => simp [Except.map]
  | ok a => simp [Except.map]

theorem Decoder.Agree.map {α β : Type} {decode : Decoder α} {d d' : Document}
    (h : decode.Agree d d') (f : α → β) : Decoder.Agree (fun d => (decode d).map f) d d' :=
  fun b => by simp only [map_eq_ok_iff, h _]

/-! ## Passing over -/

mutual

/-- A value has been read to its end, so there is nothing wrong with passing it over. -/
theorem whenPassed_toDocument : ∀ v : Json, v.toDocument.whenPassed = none
  | .null | .bool _ | .number _ | .string _ => rfl
  | .array items => by
    rw [toDocument, Document.whenPassed, itemsWhenPassed_toDocuments items]
    rfl
  | .object members => by
    rw [toDocument, Document.whenPassed, membersWhenPassed_toMembers members]
    rfl

theorem itemsWhenPassed_toDocuments :
    ∀ items : List Json, Document.itemsWhenPassed (toDocuments items) = none
  | [] => rfl
  | v :: rest => by
    rw [toDocuments, Document.itemsWhenPassed, whenPassed_toDocument v,
      itemsWhenPassed_toDocuments rest]
    rfl

theorem membersWhenPassed_toMembers :
    ∀ members : List (String × Json), Document.membersWhenPassed (toMembers members) = none
  | [] => rfl
  | (_, v) :: rest => by
    rw [toMembers, Document.membersWhenPassed, whenPassed_toDocument v,
      membersWhenPassed_toMembers rest]
    rfl

end

theorem membersWhenPassed_isNone (members : List Member) :
    (Document.membersWhenPassed members).isNone = members.all (·.2.whenPassed.isNone) := by
  induction members with
  | nil => rfl
  | cons m members ih => rw [Document.membersWhenPassed, Option.isNone_or, ih, List.all_cons]

theorem itemsWhenPassed_isNone (ds : List Document) :
    (Document.itemsWhenPassed ds).isNone = ds.all (·.whenPassed.isNone) := by
  induction ds with
  | nil => rfl
  | cons d ds ih => rw [Document.itemsWhenPassed, Option.isNone_or, ih, List.all_cons]

/-! ## Plain values -/

/-- A document without what is in its arrays and objects. -/
def Document.outline : Document → Document
  | .array _ _ => .array [] .closed
  | .object _ _ => .object [] .closed
  | d => d

/-- A decoder that takes nothing out of arrays and objects. -/
def Decoder.Shallow {α : Type} (decode : Decoder α) : Prop := ∀ d, decode d.outline = decode d

theorem shallow_text : Decode.text.Shallow := fun d => by cases d <;> rfl

theorem shallow_unsigned (wanted : String) (bound : Nat) :
    (Decode.unsigned wanted bound).Shallow := fun d => by cases d <;> rfl

theorem Decoder.Shallow.optional {α : Type} {decode : Decoder α} (h : decode.Shallow) :
    (Decode.optional decode).Shallow := fun d => by
  cases d with
  | array ds ending => exact congrArg (Except.map some) (h (.array ds ending))
  | object members ending => exact congrArg (Except.map some) (h (.object members ending))
  | _ => rfl

theorem Decoder.Shallow.agree {α : Type} {decode : Decoder α} (h : decode.Shallow)
    {d d' : Document} (ho : d.outline = d'.outline) : decode.Agree d d' := fun a => by
  rw [← h d, ← h d', ho]

theorem le_of_unsigned {wanted : String} {bound n : Nat} {d : Document}
    (h : Decode.unsigned wanted bound d = .ok n) : n ≤ bound := by
  unfold Decode.unsigned at h
  split at h
  · split at h
    · next hn =>
      cases h
      exact hn.2
    · cases h
  · cases h

theorem decode_of_optional {α : Type} {decode : Decoder α} {d : Document} {a : α}
    (h : Decode.optional decode d = .ok (some a)) : decode d = .ok a := by
  unfold Decode.optional at h
  split at h
  · cases h
  · obtain ⟨b, hb, hba⟩ := map_eq_ok_iff.mp h
    cases hba
    exact hb

/-! ## Lists -/

theorem closed_of_items {α : Type} {decode : Decoder α} {i : Nat} {ds : List Document}
    {ending : ItemsEnd} {as : List α} (h : Decode.items decode i ds ending = .ok as) :
    ending = .closed := by
  induction ds generalizing i as with
  | nil =>
    cases ending with
    | closed => rfl
    | _ => cases h
  | cons d ds ih =>
    simp only [Decode.items] at h
    split at h
    · cases h
    · obtain ⟨rest, hrest, -⟩ := map_eq_ok_iff.mp h
      exact ih hrest

theorem items_eq_ok_iff {α : Type} {decode : Decoder α} {i : Nat} {ds : List Document}
    {as : List α} : Decode.items decode i ds .closed = .ok as ↔
      List.Forall₂ (fun d a => decode d = .ok a) ds as := by
  induction ds generalizing i as with
  | nil => simp [Decode.items, ItemsEnd.whenAsked, eq_comm]
  | cons d ds ih =>
    simp only [Decode.items, List.forall₂_cons_left_iff]
    cases hd : decode d with
    | error e => simp [within, Except.mapError]
    | ok v => simp [within, Except.mapError, map_eq_ok_iff, ih, eq_comm (b := as)]

theorem list_eq_ok_iff {α : Type} {decode : Decoder α} {d : Document} {as : List α} :
    Decode.list decode d = .ok as ↔
      ∃ ds, d = .array ds .closed ∧ List.Forall₂ (fun d a => decode d = .ok a) ds as := by
  cases d with
  | array ds ending =>
    constructor
    · intro h
      have hitems : Decode.items decode 0 ds ending = .ok as := h
      obtain rfl := closed_of_items hitems
      exact ⟨ds, rfl, items_eq_ok_iff.mp hitems⟩
    · rintro ⟨ds, hds, h⟩
      obtain ⟨rfl, rfl⟩ := Document.array.inj hds
      exact items_eq_ok_iff.mpr h
  | _ => simp [Decode.list, failHere]

/-- Each value of a list is that of an item. -/
theorem exists_item {α : Type} {decode : Decoder α} {d : Document} {a : α} {as : List α}
    (h : Decode.list decode d = .ok as) (ha : a ∈ as) : ∃ d', decode d' = .ok a := by
  obtain ⟨ds, -, hds⟩ := list_eq_ok_iff.mp h
  clear h
  induction hds with
  | nil => cases ha
  | cons hd _ ih =>
    rcases List.mem_cons.mp ha with rfl | ha
    · exact ⟨_, hd⟩
    · exact ih ha

theorem forall₂_item {α : Type} {decode : Decoder α} {d d' : Document} (h : decode.Agree d d')
    {before after : List Document} {as : List α} :
    List.Forall₂ (fun d a => decode d = .ok a) (before ++ d :: after) as ↔
      List.Forall₂ (fun d a => decode d = .ok a) (before ++ d' :: after) as := by
  induction before generalizing as with
  | nil => simp only [List.nil_append, List.forall₂_cons_left_iff, h _]
  | cons e before ih => simp only [List.cons_append, List.forall₂_cons_left_iff, ih]

theorem Decoder.Agree.list {α : Type} {decode : Decoder α} {d d' : Document}
    (h : decode.Agree d d') (before after : List Document) (ending : ItemsEnd) :
    (Decode.list decode).Agree (.array (before ++ d :: after) ending)
      (.array (before ++ d' :: after) ending) := fun as => by
  simp only [list_eq_ok_iff, Document.array.injEq, ↓existsAndEq, true_and, forall₂_item h]

end EventBroker.Json
