import EventBroker.Proofs.JsonText
import EventBroker.Saturating

/-! # Records as they are written

A record is written as an object whose members stand in the order of its fields, and a field that
may be absent may be left out. `FieldList.Writes` says that some members are so written for a
value, and then the record is read as that value (`FieldList.Writes.means`). Whole values go the
same way: `Json.Means decode v a` says that `decode` takes `a` out of `v` and that the numbers of
`v` are words, and `means_list` and `Means.optional` build it up. What is sent as text means the
same to whoever reads it (`Means.front`, `Means.whole`).
-/
set_option autoImplicit false

namespace EventBroker.Json

/-- A decoder takes a value out of a JSON value, and would out of its text. -/
structure Means {α : Type} (decode : Decoder α) (v : Json) (a : α) : Prop where
  words : v.HasWords
  read : decode v.toDocument = .ok a

/-! ## Plain values -/

theorem means_text (s : String) : Means Decode.text (.string s) s := ⟨trivial, rfl⟩

theorem means_flag (b : Bool) : Means Decode.flag (.bool b) b := ⟨trivial, rfl⟩

theorem means_unsigned (wanted : String) {bound n : Nat} (hbound : bound ≤ word64Max)
    (h : n ≤ bound) : Means (Decode.unsigned wanted bound) (.number n) n where
  words := by
    have hword : bound ≤ 0xFFFFFFFFFFFFFFFF := hbound
    exact ⟨by omega, by omega⟩
  read := by
    have hn : (0 : Int) ≤ n ∧ (n : Int).toNat ≤ bound := by omega
    show Decode.unsigned wanted bound (.number (.ok (.integer n))) = .ok n
    rw [Decode.unsigned, if_pos hn, Int.toNat_natCast]

theorem means_word32 {n : Nat} (h : n ≤ word32Max) : Means Decode.word32 (.number n) n :=
  means_unsigned "u32" (by decide) h

theorem means_word64 {n : Nat} (h : n ≤ word64Max) : Means Decode.word64 (.number n) n :=
  means_unsigned "u64" (by decide) h

theorem means_count {n : Nat} (h : n ≤ word64Max) : Means Decode.count (.number n) n :=
  means_unsigned "usize" (by decide) h

/-! ## Values that may be missing, and lists -/

theorem Means.optional {α : Type} {decode : Decoder α} {v : Json} {a : α} (h : Means decode v a)
    (hv : v ≠ .null) : Means (Decode.optional decode) v (some a) where
  words := h.words
  read := by
    have hd : Decode.optional decode v.toDocument = (decode v.toDocument).map some := by
      cases v with
      | null => exact absurd rfl hv
      | _ => rfl
    rw [hd, h.read]
    rfl

theorem items_toDocuments {α β : Type} {decode : Decoder β} {encode : α → Json} {value : α → β}
    {xs : List α} (h : ∀ x ∈ xs, Means decode (encode x) (value x)) (i : Nat) :
    Decode.items decode i (toDocuments (xs.map encode)) .closed = .ok (xs.map value) := by
  induction xs generalizing i with
  | nil => rfl
  | cons x rest ih =>
    have hx := (h x List.mem_cons_self).read
    have hrest := ih (fun y hy => h y (List.mem_cons_of_mem _ hy)) (i + 1)
    simp only [List.map_cons, toDocuments, Decode.items, hx, hrest]
    rfl

theorem itemsHaveWords {α β : Type} {decode : Decoder β} {encode : α → Json} {value : α → β}
    {xs : List α} (h : ∀ x ∈ xs, Means decode (encode x) (value x)) :
    ItemsHaveWords (xs.map encode) := by
  induction xs with
  | nil => trivial
  | cons x rest ih =>
    have hx := (h x List.mem_cons_self).words
    exact ⟨hx, ih fun y hy => h y (List.mem_cons_of_mem _ hy)⟩

theorem means_list {α β : Type} {decode : Decoder β} {encode : α → Json} {value : α → β}
    {xs : List α} (h : ∀ x ∈ xs, Means decode (encode x) (value x)) :
    Means (Decode.list decode) (.array (xs.map encode)) (xs.map value) :=
  ⟨itemsHaveWords h, items_toDocuments h 0⟩

theorem means_texts (ss : List String) :
    Means (Decode.list Decode.text) (.array (ss.map .string)) ss := by
  have h : Means (Decode.list Decode.text) (.array (ss.map .string)) (ss.map id) :=
    means_list fun s _ => means_text s
  rwa [List.map_id] at h

/-! ## Records -/

/-- Whether a field is for none of some members. -/
def Field.spares {α : Type} (field : Field α) (members : List (String × Json)) : Bool :=
  members.all fun m => !field.answersTo m.1

namespace FieldList

/-- Members in the order of the fields that they are for. A field may have no member if it may be
absent, and no later member may be for it. -/
inductive Writes : {α : Type} → FieldList α → List (String × Json) → α → Prop
  | nil : Writes .nil [] ()
  | present {α β : Type} {field : Field α} {rest : FieldList β} {v : Json} {a : α}
      {members : List (String × Json)} {b : β} (hv : Means field.decode v a)
      (hrest : Writes rest members b)
      (hnone : field.spares members = true) :
      Writes (.cons field rest) ((field.name, v) :: members) (a, b)
  | absent {α β : Type} {field : Field α} {rest : FieldList β} {a : α}
      {members : List (String × Json)} {b : β} (ha : field.absent = some a)
      (hrest : Writes rest members b)
      (hnone : field.spares members = true) :
      Writes (.cons field rest) members (a, b)

/-- A member for the first field, which had none yet. -/
theorem accept_head {α β : Type} {field : Field α} {rest : FieldList β} {name : String} {a : α}
    {slots : rest.Slots} {d : Document} (hname : field.answersTo name = true)
    (hd : field.decode d = .ok a) :
    (FieldList.cons field rest).accept name (.ok d) (none, slots) = .ok (some (some a, slots)) := by
  have hwithin : within (.name name) (.ok a) = .ok a := rfl
  simp only [accept, hname, if_true, Option.isSome_none, Bool.false_eq_true, if_false, hd, hwithin,
    Except.map]

theorem collect_cons {α : Type} {fs : FieldList α} {name : String} {d : Document}
    {members : List Member} {ending : MembersEnd} {slots slots' : fs.Slots}
    (h : fs.accept name (.ok d) slots = .ok (some slots')) :
    fs.collect ((.ok name, d) :: members) ending slots = fs.collect members ending slots' := by
  rw [collect, h]

/-- Members for later fields leave the slot of the first field alone. -/
theorem collect_tail {α β : Type} {field : Field α} {rest : FieldList β}
    {members : List (String × Json)} {slots slots' : rest.Slots} (slot : Option α)
    (hnone : field.spares members = true)
    (h : rest.collect (toMembers members) .closed slots = .ok slots') :
    (FieldList.cons field rest).collect (toMembers members) .closed (slot, slots) =
      .ok (slot, slots') := by
  induction members generalizing slots with
  | nil =>
    cases h
    rfl
  | cons m members ih =>
    obtain ⟨name, v⟩ := m
    obtain ⟨hname, htail⟩ := Bool.and_eq_true_iff.mp (hnone : (_ && _) = true)
    rw [Bool.not_eq_true'] at hname
    have hskip : (FieldList.cons field rest).accept name (.ok v.toDocument) (slot, slots) =
        (rest.accept name (.ok v.toDocument) slots).map (Option.map ((slot, ·))) := by
      simp only [accept, hname, Bool.false_eq_true, if_false]
      rfl
    simp only [toMembers, collect] at h ⊢
    rw [hskip]
    cases ha : rest.accept name (.ok v.toDocument) slots with
    | error e =>
      rw [ha] at h
      cases h
    | ok taken =>
      rw [ha] at h
      cases taken with
      | some slots₁ => exact ih htail h
      | none =>
        simp only [Except.map, Option.map_none] at h ⊢
        cases hp : v.toDocument.whenPassed with
        | some f =>
          rw [hp] at h
          cases h
        | none =>
          rw [hp] at h
          exact ih htail h

theorem Writes.collect {α : Type} {fs : FieldList α} {members : List (String × Json)} {a : α}
    (h : fs.Writes members a) : ∃ slots,
      fs.collect (toMembers members) .closed fs.noSlots = .ok slots ∧ fs.finish slots = .ok a := by
  induction h with
  | nil => exact ⟨(), rfl, rfl⟩
  | @present α β field rest v a members b hv _ hnone ih =>
    obtain ⟨slots, hcollect, hfinish⟩ := ih
    have hself : field.answersTo field.name = true := by simp [Field.answersTo]
    refine ⟨(some a, slots), ?_, ?_⟩
    · exact (collect_cons (accept_head hself hv.read)).trans (collect_tail (some a) hnone hcollect)
    · simp only [finish, Option.some_or, hfinish]
      rfl
  | @absent α β field rest a members b ha _ hnone ih =>
    obtain ⟨slots, hcollect, hfinish⟩ := ih
    refine ⟨(none, slots), collect_tail none hnone hcollect, ?_⟩
    simp only [finish, Option.none_or, ha, hfinish]
    rfl

theorem Writes.words {α : Type} {fs : FieldList α} {members : List (String × Json)} {a : α}
    (h : fs.Writes members a) : MembersHaveWords members := by
  induction h with
  | nil => trivial
  | present hv _ _ ih => exact ⟨hv.words, ih⟩
  | absent _ _ _ ih => exact ih

/-- A record that is so written is read as the value that it was written for. -/
theorem Writes.means {α β : Type} {fs : FieldList α} {members : List (String × Json)} {a : α}
    (h : fs.Writes members a) (record : String) (f : α → β) :
    Means (fun d => (fs.decode record d).map f) (.object members) (f a) where
  words := h.words
  read := by
    obtain ⟨slots, hcollect, hfinish⟩ := h.collect
    show (fs.ofMembers (toMembers members) .closed).map f = .ok (f a)
    simp only [ofMembers, hcollect, hfinish]
    rfl

end FieldList

/-! ## Sent as text -/

theorem Means.front {α : Type} {decode : Decoder α} {v : Json} {a : α} (h : Means decode v a) :
    decodeFront decode v.bytes = .ok a := by
  rw [decodeFront, readDocument_bytes h.words]
  exact h.read

theorem Means.whole {α : Type} {decode : Decoder α} {v : Json} {a : α} (h : Means decode v a) :
    decodeWhole decode v.bytes = .ok a := by
  rw [decodeWhole_bytes decode h.words]
  exact h.read

end EventBroker.Json
