import EventBroker.Proofs.Decoding
import Mathlib.Data.List.Perm.Basic

/-! # Records by their members

A decoder of records goes through an object member by member and keeps what it has found in slots.
What it takes in the end can be said without that order: each field has the one member that is for
it, or none and a value that stands for that, and the members that are for no field can be passed
over (`FieldList.ofMembers_eq_ok_iff`). An array is taken item by item, with what stands for the
items that it is too short for (`FieldList.ofItems_eq_ok_iff`).

This needs that no name is for two fields, `FieldList.apart`.
-/
set_option autoImplicit false

namespace EventBroker.Json

/-! ## Fields -/

/-- Whether the name of a member can be read and is of some kind. -/
def Member.named (kind : String → Bool) (m : Member) : Bool :=
  match m.1 with
  | .ok name => kind name
  | .error _ => false

namespace Field

variable {α : Type} {field : Field α} {members members' : List Member} {name : String}
  {d d' : Document} {a : α}

def names (field : Field α) : List String := field.name :: field.aliases

theorem answersTo_eq (field : Field α) (name : String) :
    field.answersTo name = field.names.contains name := by
  rw [answersTo, names, List.contains_cons]

/-- The values of the members that are for a field. -/
def found (field : Field α) (members : List Member) : List Document :=
  (members.filter (Member.named field.answersTo)).map (·.2)

/-- The value of a field is that of its one member, or what stands for none. -/
def Reads (field : Field α) (found : List Document) (a : α) : Prop :=
  (∃ d, found = [d] ∧ field.decode d = .ok a) ∨ (found = [] ∧ field.absent = some a)

/-- A value of a field, wherever it comes from. -/
def Obtains (field : Field α) (a : α) : Prop :=
  (∃ d, field.decode d = .ok a) ∨ field.absent = some a ∨ field.absentInArray = some a

theorem Obtains.decoded (h : field.Obtains a)
    (habsent : field.absent = none) (hshort : field.absentInArray = none) :
    ∃ d, field.decode d = .ok a := by
  rcases h with h | h | h
  · exact h
  · rw [habsent] at h
    cases h
  · rw [hshort] at h
    cases h

theorem Obtains.decoded_or_default {decode : Decoder α} {b : α}
    (h : (Field.withDefault name decode b).Obtains a) : (∃ d, decode d = .ok a) ∨ a = b := by
  rcases h with h | h | h
  · exact .inl h
  · exact .inr (Option.some.inj h).symm
  · exact .inr (Option.some.inj h).symm

theorem found_cons_of_answersTo (h : field.answersTo name = true) (members : List Member) :
    field.found ((.ok name, d) :: members) = d :: field.found members := by
  rw [found, List.filter_cons_of_pos (by exact h)]
  rfl

theorem found_cons_of_not (h : field.answersTo name = false) (members : List Member) :
    field.found ((.ok name, d) :: members) = field.found members := by
  rw [found, List.filter_cons_of_neg (by simpa [Member.named] using h)]
  rfl

theorem length_found (field : Field α) (members : List Member) :
    (field.found members).length = members.countP (Member.named field.names.contains) := by
  have hkind : field.answersTo = field.names.contains := funext field.answersTo_eq
  rw [found, List.length_map, List.countP_eq_length_filter, hkind]

theorem Reads.length_le {found : List Document} (h : field.Reads found a) : found.length ≤ 1 := by
  rcases h with ⟨d, rfl, -⟩ | ⟨rfl, -⟩
  · exact Nat.le_refl 1
  · exact Nat.zero_le 1

theorem Reads.perm {found found' : List Document} (h : field.Reads found a)
    (hp : found.Perm found') : field.Reads found' a := by
  rcases h with ⟨d, rfl, hd⟩ | ⟨rfl, ha⟩
  · exact .inl ⟨d, (List.singleton_perm.mp hp).symm, hd⟩
  · exact .inr ⟨List.nil_perm.mp hp, ha⟩

theorem reads_cons_iff {found : List Document} :
    field.Reads (d :: found) a ↔ found = [] ∧ field.decode d = .ok a := by
  constructor
  · rintro (⟨d', he, hd⟩ | ⟨he, -⟩)
    · obtain ⟨rfl, rfl⟩ := List.cons.inj he
      exact ⟨rfl, hd⟩
    · cases he
  · rintro ⟨rfl, hd⟩
    exact .inl ⟨d, rfl, hd⟩

theorem reads_nil_iff : field.Reads [] a ↔ field.absent = some a := by
  constructor
  · rintro (⟨d, he, -⟩ | ⟨-, ha⟩)
    · cases he
    · exact ha
  · exact fun ha => .inr ⟨rfl, ha⟩

/-- A field without a member has what stands for none. -/
theorem Reads.absent (h : field.Reads (field.found members) a)
    (hnone : members.countP (Member.named field.names.contains) = 0) : field.absent = some a := by
  have hfound : field.found members = [] := by
    rw [← List.length_eq_zero_iff, length_found, hnone]
  rwa [hfound, reads_nil_iff] at h

end Field

/-! ## Records -/

namespace FieldList

variable {α : Type} {fs : FieldList α} {members members' : List Member} {name name' : String}
  {d d' : Document} {ending : MembersEnd} {a : α}

/-- The names of each field. -/
def groups : {α : Type} → FieldList α → List (List String)
  | _, .nil => []
  | _, .cons field rest => field.names :: rest.groups

/-- Whether a name is for some field. -/
def knows : {α : Type} → FieldList α → String → Bool
  | _, .nil, _ => false
  | _, .cons field rest, name => field.answersTo name || rest.knows name

/-- Whether no name is for two fields. -/
def apart : {α : Type} → FieldList α → Bool
  | _, .nil => true
  | _, .cons field rest => field.names.all (fun name => !rest.knows name) && rest.apart

theorem knows_eq (fs : FieldList α) (name : String) :
    fs.knows name = fs.groups.flatten.contains name := by
  induction fs with
  | nil => rfl
  | cons field rest ih =>
    rw [knows, groups, List.flatten_cons, Field.answersTo_eq, ih, Bool.eq_iff_iff]
    simp only [Bool.or_eq_true, List.contains_iff_mem, List.mem_append]

theorem apart_cons_iff {α β : Type} {field : Field α} {rest : FieldList β} :
    (FieldList.cons field rest).apart = true ↔
      (∀ name, field.answersTo name = true → rest.knows name = false) ∧ rest.apart = true := by
  simp only [apart, Bool.and_eq_true, List.all_eq_true, Bool.not_eq_true', Field.answersTo_eq,
    List.contains_iff_mem]

/-- The value of a record is made of the values of its fields. -/
def Reads : {α : Type} → FieldList α → List Member → α → Prop
  | _, .nil, _, _ => True
  | _, .cons field rest, members, (a, b) =>
    field.Reads (field.found members) a ∧ rest.Reads members b

/-- Whether a member is for some field or can be passed over. -/
def passes (fs : FieldList α) (m : Member) : Bool :=
  match m.1 with
  | .ok name => fs.knows name || m.2.whenPassed.isNone
  | .error _ => false

/-- What is still to be read when some slots are filled: their fields must have no more members. -/
def Completes : {α : Type} → (fs : FieldList α) → fs.Slots → List Member → α → Prop
  | _, .nil, _, _, _ => True
  | _, @cons α _ field rest, found, members, (a, b) =>
    let slot : Option α := found.1
    let slots : rest.Slots := found.2
    (match slot with
      | some v => v = a ∧ field.found members = []
      | none => field.Reads (field.found members) a) ∧ rest.Completes slots members b

theorem completes_noSlots (fs : FieldList α) (members : List Member) (a : α) :
    fs.Completes fs.noSlots members a ↔ fs.Reads members a := by
  induction fs with
  | nil => rfl
  | cons field rest ih => exact and_congr_right' (ih a.2)

/-- At the end of the members, the slots are finished. -/
theorem completes_nil_iff (slots : fs.Slots) :
    fs.Completes slots [] a ↔ fs.finish slots = .ok a := by
  induction fs with
  | nil =>
    obtain ⟨⟩ := a
    exact ⟨fun _ => rfl, fun _ => trivial⟩
  | cons field rest ih =>
    obtain ⟨slot, slots⟩ := slots
    obtain ⟨a, b⟩ := a
    have hfound : field.found [] = [] := rfl
    simp only [Completes, finish, hfound, ih, Field.reads_nil_iff]
    cases slot with
    | some v => simp [map_eq_ok_iff, and_comm]
    | none =>
      cases field.absent with
      | some v => simp [map_eq_ok_iff, and_comm]
      | none => simp [failHere]

/-- A member for no field leaves everything to be read as it was. -/
theorem completes_cons_of_unknown (h : fs.knows name = false) (slots : fs.Slots) :
    fs.Completes slots ((.ok name, d) :: members) a ↔ fs.Completes slots members a := by
  induction fs with
  | nil => rfl
  | cons field rest ih =>
    obtain ⟨slot, slots⟩ := slots
    obtain ⟨hfield, hrest⟩ := Bool.or_eq_false_iff.mp h
    simp only [Completes, ih hrest, Field.found_cons_of_not hfield]

/-- What taking in a member leaves to be read: what was to be read with the member, if there is
nothing wrong with it. -/
theorem accept_spec (h : fs.apart = true) (name : String) (d : Document) (slots : fs.Slots) :
    match fs.accept name (.ok d) slots with
    | .ok none => fs.knows name = false
    | .ok (some slots') => fs.knows name = true ∧
      ∀ members a, fs.Completes slots ((.ok name, d) :: members) a ↔ fs.Completes slots' members a
    | .error _ => fs.knows name = true ∧
      ∀ members a, ¬fs.Completes slots ((.ok name, d) :: members) a := by
  induction fs with
  | nil => rfl
  | cons field rest ih =>
    obtain ⟨slot, slots⟩ := slots
    obtain ⟨happart, hrest⟩ := apart_cons_iff.mp h
    cases hname : field.answersTo name with
    | true =>
      have hknows : (FieldList.cons field rest).knows name = true := by rw [knows, hname]; rfl
      have hothers : ∀ members b, rest.Completes slots ((.ok name, d) :: members) b ↔
          rest.Completes slots members b := fun members b =>
        completes_cons_of_unknown (happart name hname) slots
      cases slot with
      | some v =>
        -- a second member for the field, which `Completes` does not allow for a full slot
        simp only [accept, hname, if_true, Option.isSome_some, failHere]
        refine ⟨hknows, fun members a hc => ?_⟩
        have hfound := hc.1.2
        rw [Field.found_cons_of_answersTo hname] at hfound
        cases hfound
      | none =>
        simp only [accept, hname, if_true, Option.isSome_none, Bool.false_eq_true, if_false]
        cases hd : field.decode d with
        | error e =>
          simp only [within, Except.mapError, Except.map]
          refine ⟨hknows, fun members a hc => ?_⟩
          have hreads := hc.1
          simp only [Field.found_cons_of_answersTo hname, Field.reads_cons_iff, hd] at hreads
          cases hreads.2
        | ok v =>
          simp only [within, Except.mapError, Except.map]
          refine ⟨hknows, fun members a => ?_⟩
          simp only [Completes, hothers, Field.found_cons_of_answersTo hname, Field.reads_cons_iff,
            hd, Except.ok.injEq]
          tauto
    | false =>
      have hknows : (FieldList.cons field rest).knows name = rest.knows name := by
        rw [knows, hname, Bool.false_or]
      have hstep := ih hrest slots
      simp only [accept, hname, Bool.false_eq_true, if_false, hknows]
      cases ha : rest.accept name (.ok d) slots with
      | error e =>
        rw [ha] at hstep
        exact ⟨hstep.1, fun members a hc => hstep.2 members a.2 hc.2⟩
      | ok taken =>
        rw [ha] at hstep
        cases taken with
        | none => exact hstep
        | some slots' =>
          refine ⟨hstep.1, fun members a => ?_⟩
          simp only [Completes, hstep.2, Field.found_cons_of_not hname]

/-- Members one after another. -/
theorem collect_finish_iff (h : fs.apart = true) (slots : fs.Slots) :
    (∃ slots', fs.collect members .closed slots = .ok slots' ∧ fs.finish slots' = .ok a) ↔
      members.all fs.passes = true ∧ fs.Completes slots members a := by
  -- over the members with whatever is in the slots, since each member may fill one
  induction members generalizing slots with
  | nil =>
    rw [completes_nil_iff]
    constructor
    · rintro ⟨slots', he, hf⟩
      cases he
      exact ⟨rfl, hf⟩
    · exact fun hf => ⟨slots, rfl, hf.2⟩
  | cons m members ih =>
    obtain ⟨key, d⟩ := m
    cases key with
    | error f =>
      constructor
      · rintro ⟨slots', he, -⟩
        cases he
      · rintro ⟨hp, -⟩
        cases hp
    | ok name =>
      have hspec := accept_spec h name d slots
      have hpass : fs.passes (.ok name, d) = (fs.knows name || d.whenPassed.isNone) := rfl
      rw [List.all_cons, hpass, collect]
      cases ha : fs.accept name (.ok d) slots with
      | error e =>
        rw [ha] at hspec
        constructor
        · rintro ⟨slots', he, -⟩
          cases he
        · exact fun hc => absurd hc.2 (hspec.2 members a)
      | ok taken =>
        rw [ha] at hspec
        cases taken with
        | some slots' =>
          simp only [ih slots', hspec.1, Bool.true_or, Bool.true_and, hspec.2]
        | none =>
          rw [completes_cons_of_unknown hspec, hspec, Bool.false_or]
          cases hd : d.whenPassed with
          | some f =>
            constructor
            · rintro ⟨slots', he, -⟩
              cases he
            · rintro ⟨hp, -⟩
              cases hp
          | none => simp only [ih slots, Option.isNone_none, Bool.true_and]

/-- Nobody gets past the end of an object that is not closed. -/
theorem collect_closed {slots slots' : fs.Slots}
    (h : fs.collect members ending slots = .ok slots') : ending = .closed := by
  induction members generalizing slots with
  | nil =>
    cases ending with
    | closed => rfl
    | colonMissing name f =>
      cases name with
      | error f => cases h
      | ok name =>
        simp only [collect] at h
        split at h <;> cases h
    | _ => cases h
  | cons m members ih =>
    obtain ⟨key, d⟩ := m
    cases key with
    | error f => cases h
    | ok name =>
      simp only [collect] at h
      split at h
      · cases h
      · exact ih h
      · split at h
        · cases h
        · exact ih h

/-- A record is taken out of an object just when its fields can be read and everything else can be
passed over, up to the closing brace. -/
theorem ofMembers_eq_ok_iff (h : fs.apart = true) :
    fs.ofMembers members ending = .ok a ↔
      ending = .closed ∧ members.all fs.passes = true ∧ fs.Reads members a := by
  have hcollect : fs.ofMembers members ending = .ok a ↔
      ∃ slots, fs.collect members ending fs.noSlots = .ok slots ∧ fs.finish slots = .ok a := by
    unfold ofMembers
    cases fs.collect members ending fs.noSlots with
    | error e => simp
    | ok slots => simp
  -- `Reads` is `Completes` before the first member
  rw [hcollect, ← completes_noSlots, ← collect_finish_iff h]
  constructor
  · rintro ⟨slots, hslots, hfinish⟩
    obtain rfl := collect_closed hslots
    exact ⟨rfl, slots, hslots, hfinish⟩
  · rintro ⟨rfl, hslots⟩
    exact hslots

theorem reads_of_map_decode (h : fs.apart = true) {β : Type} {f : α → β} {b : β} {record : String}
    (hb : (fs.decode record (.object members ending)).map f = .ok b) :
    ∃ a, fs.Reads members a ∧ f a = b := by
  obtain ⟨a, ha, hab⟩ := map_eq_ok_iff.mp hb
  exact ⟨a, ((ofMembers_eq_ok_iff h).mp ha).2.2, hab⟩

/-- A record is taken out of an array just when its items, field by field, can be read. -/
def ReadsItems : {α : Type} → FieldList α → List Document → α → Prop
  | _, .nil, ds, _ => ds = []
  | _, .cons field rest, d :: ds, (a, b) => field.decode d = .ok a ∧ rest.ReadsItems ds b
  | _, .cons field rest, [], (a, b) => field.absentInArray = some a ∧ rest.ReadsItems [] b

theorem ofItems_closed_iff {short : Nat → Fault} {i : Nat} {ds : List Document} :
    fs.ofItems short i ds .closed = .ok a ↔ fs.ReadsItems ds a := by
  induction fs generalizing i ds with
  | nil =>
    obtain ⟨⟩ := a
    cases ds with
    | nil => exact ⟨fun _ => rfl, fun _ => rfl⟩
    | cons d ds => simp [ofItems, ReadsItems, failHere]
  | cons field rest ih =>
    obtain ⟨a, b⟩ := a
    cases ds with
    | nil =>
      simp only [ofItems, ReadsItems, ItemsEnd.whenAsked]
      cases field.absentInArray with
      | some v => simp [map_eq_ok_iff, ih, and_comm]
      | none => simp [failHere]
    | cons d ds =>
      simp only [ofItems, ReadsItems]
      cases field.decode d with
      | error e => simp [within, Except.mapError]
      | ok v => simp [within, Except.mapError, map_eq_ok_iff, ih, and_comm]

theorem closed_of_ofItems {short : Nat → Fault} {i : Nat} {ds : List Document} {ending : ItemsEnd}
    (h : fs.ofItems short i ds ending = .ok a) : ending = .closed := by
  induction fs generalizing i ds with
  | nil =>
    cases ds with
    | nil =>
      cases ending with
      | closed => rfl
      | _ => cases h
    | cons d ds => cases h
  | cons field rest ih =>
    cases ds with
    | nil =>
      cases ending with
      | closed => rfl
      | _ => cases h
    | cons d ds =>
      simp only [ofItems] at h
      split at h
      · cases h
      · obtain ⟨b, hb, -⟩ := map_eq_ok_iff.mp h
        exact ih hb

theorem ofItems_eq_ok_iff {short : Nat → Fault} {i : Nat} {ds : List Document}
    {ending : ItemsEnd} :
    fs.ofItems short i ds ending = .ok a ↔ ending = .closed ∧ fs.ReadsItems ds a := by
  constructor
  · intro h
    obtain rfl := closed_of_ofItems h
    exact ⟨rfl, ofItems_closed_iff.mp h⟩
  · rintro ⟨rfl, h⟩
    exact ofItems_closed_iff.mpr h

theorem decode_array_iff {record : String} {ds : List Document} {ending : ItemsEnd} :
    fs.decode record (.array ds ending) = .ok a ↔ ending = .closed ∧ fs.ReadsItems ds a :=
  ofItems_eq_ok_iff

theorem map_decode_array_iff {β : Type} {f : α → β} {b : β} {record : String} {ds : List Document}
    {ending : ItemsEnd} : (fs.decode record (.array ds ending)).map f = .ok b ↔
      ending = .closed ∧ ∃ a, fs.ReadsItems ds a ∧ f a = b := by
  simp only [map_eq_ok_iff, decode_array_iff, and_assoc, exists_and_left]

/-- What the values of a record can be: each is decoded from something or is a default. -/
def Obtains : {α : Type} → FieldList α → α → Prop
  | _, .nil, _ => True
  | _, .cons field rest, (a, b) => field.Obtains a ∧ rest.Obtains b

theorem Reads.obtains (h : fs.Reads members a) : fs.Obtains a := by
  induction fs with
  | nil => trivial
  | cons field rest ih =>
    refine ⟨?_, ih h.2⟩
    rcases h.1 with ⟨d, -, hd⟩ | ⟨-, ha⟩
    · exact .inl ⟨d, hd⟩
    · exact .inr (.inl ha)

theorem ReadsItems.obtains {ds : List Document} (h : fs.ReadsItems ds a) : fs.Obtains a := by
  induction fs generalizing ds with
  | nil => trivial
  | cons field rest ih =>
    cases ds with
    | nil => exact ⟨.inr (.inr h.1), ih h.2⟩
    | cons d ds => exact ⟨.inl ⟨d, h.1⟩, ih h.2⟩

theorem decode_obtains (happart : fs.apart = true) {record : String}
    (h : fs.decode record d = .ok a) : fs.Obtains a := by
  cases d with
  | array ds ending => exact (decode_array_iff.mp h).2.obtains
  | object members ending =>
    have hmembers : fs.ofMembers members ending = .ok a := h
    exact ((ofMembers_eq_ok_iff happart).mp hmembers).2.2.obtains
  | _ => cases h

/-! ## What makes no difference -/

/-- A value for a name is the same to the field that the name is for, or it can be passed over as
well as the other. -/
def AgreeAt : {α : Type} → FieldList α → String → Document → Document → Prop
  | _, .nil, _, d, d' => d.whenPassed.isNone = d'.whenPassed.isNone
  | _, .cons field rest, name, d, d' =>
    if field.answersTo name then field.decode.Agree d d' else rest.AgreeAt name d d'

/-- A value at an index is the same to the field that the index is for. -/
def AgreeItem : {α : Type} → FieldList α → Nat → Document → Document → Prop
  | _, .nil, _, _, _ => True
  | _, .cons field _, 0, d, d' => field.decode.Agree d d'
  | _, .cons _ rest, n + 1, d, d' => rest.AgreeItem n d d'

/-- Whether two names are for the same field. -/
def sameField : {α : Type} → FieldList α → String → String → Bool
  | _, .nil, _, _ => true
  | _, .cons field rest, name, name' =>
    field.answersTo name == field.answersTo name' && rest.sameField name name'

/-- A document that a field with some name takes for what its absence means. -/
def DefaultsTo : {α : Type} → FieldList α → String → Document → Prop
  | _, .nil, _, _ => False
  | _, .cons field rest, name, d =>
    if field.answersTo name then
      field.names = [name] ∧ ∃ a, field.absent = some a ∧ field.decode d = .ok a
    else rest.DefaultsTo name d

theorem Reads.perm (h : fs.Reads members a) (hp : members.Perm members') : fs.Reads members' a := by
  induction fs with
  | nil => trivial
  | cons field rest ih => exact ⟨h.1.perm ((hp.filter _).map _), ih h.2⟩

/-- The order of the members does not matter. -/
theorem ofMembers_perm (h : fs.apart = true) (hp : members.Perm members') :
    fs.ofMembers members ending = .ok a ↔ fs.ofMembers members' ending = .ok a := by
  rw [ofMembers_eq_ok_iff h, ofMembers_eq_ok_iff h, hp.all_eq]
  exact and_congr_right' (and_congr_right' ⟨fun hr => hr.perm hp, fun hr => hr.perm hp.symm⟩)

theorem reads_cons_of_unknown (h : fs.knows name = false) :
    fs.Reads ((.ok name, d) :: members) a ↔ fs.Reads members a := by
  rw [← completes_noSlots, ← completes_noSlots, completes_cons_of_unknown h]

/-- A member for no field does not matter if it can be passed over. -/
theorem ofMembers_unknown (h : fs.apart = true) (hname : fs.knows name = false)
    (hd : d.whenPassed = none) : fs.ofMembers members ending = .ok a ↔
      fs.ofMembers ((.ok name, d) :: members) ending = .ok a := by
  have hpass : fs.passes (.ok name, d) = true := by simp [passes, hd]
  rw [ofMembers_eq_ok_iff h, ofMembers_eq_ok_iff h, reads_cons_of_unknown hname, List.all_cons,
    hpass, Bool.true_and]

theorem reads_renamed (h : fs.sameField name name' = true) :
    fs.Reads ((.ok name, d) :: members) a ↔ fs.Reads ((.ok name', d) :: members) a := by
  induction fs with
  | nil => rfl
  | cons field rest ih =>
    obtain ⟨hfield, hrest⟩ := Bool.and_eq_true_iff.mp h
    rw [beq_iff_eq] at hfield
    have hfound : field.found ((.ok name, d) :: members) =
        field.found ((.ok name', d) :: members) := by
      cases hname : field.answersTo name' with
      | true =>
        rw [Field.found_cons_of_answersTo (hfield.trans hname), Field.found_cons_of_answersTo hname]
      | false => rw [Field.found_cons_of_not (hfield.trans hname), Field.found_cons_of_not hname]
    simp only [Reads, hfound, ih hrest]

theorem knows_of_sameField (h : fs.sameField name name' = true) :
    fs.knows name = fs.knows name' := by
  induction fs with
  | nil => rfl
  | cons field rest ih =>
    obtain ⟨hfield, hrest⟩ := Bool.and_eq_true_iff.mp h
    rw [knows, knows, beq_iff_eq.mp hfield, ih hrest]

/-- Which of its names a field is given under does not matter. -/
theorem ofMembers_renamed (h : fs.apart = true) (hname : fs.sameField name name' = true) :
    fs.ofMembers ((.ok name, d) :: members) ending = .ok a ↔
      fs.ofMembers ((.ok name', d) :: members) ending = .ok a := by
  have hpass : fs.passes (.ok name, d) = fs.passes (.ok name', d) := by
    simp only [passes, knows_of_sameField hname]
  rw [ofMembers_eq_ok_iff h, ofMembers_eq_ok_iff h, List.all_cons, List.all_cons, hpass,
    reads_renamed hname]

theorem reads_member (happart : fs.apart = true) (h : fs.AgreeAt name d d') :
    fs.Reads ((.ok name, d) :: members) a ↔ fs.Reads ((.ok name, d') :: members) a := by
  induction fs with
  | nil => rfl
  | cons field rest ih =>
    obtain ⟨hothers, hrest⟩ := apart_cons_iff.mp happart
    rw [AgreeAt] at h
    cases hname : field.answersTo name with
    | true =>
      rw [if_pos hname] at h
      simp only [Reads, Field.found_cons_of_answersTo hname, Field.reads_cons_iff, h a.1,
        reads_cons_of_unknown (hothers name hname)]
    | false =>
      rw [if_neg (by simp [hname])] at h
      simp only [Reads, Field.found_cons_of_not hname, ih hrest h]

theorem passes_of_agreeAt (h : fs.AgreeAt name d d') :
    fs.passes (.ok name, d) = fs.passes (.ok name, d') := by
  simp only [passes]
  induction fs with
  | nil => exact h
  | cons field rest ih =>
    rw [AgreeAt] at h
    cases hname : field.answersTo name with
    | true => simp [knows, hname]
    | false =>
      rw [if_neg (by simp [hname])] at h
      simpa [knows, hname] using ih h

/-- What is in a member matters only as far as its field looks at it. -/
theorem ofMembers_member (happart : fs.apart = true) (h : fs.AgreeAt name d d') :
    fs.ofMembers ((.ok name, d) :: members) ending = .ok a ↔
      fs.ofMembers ((.ok name, d') :: members) ending = .ok a := by
  rw [ofMembers_eq_ok_iff happart, ofMembers_eq_ok_iff happart, List.all_cons, List.all_cons,
    passes_of_agreeAt h, reads_member happart h]

theorem readsItems_item {before after : List Document} (h : fs.AgreeItem before.length d d') :
    fs.ReadsItems (before ++ d :: after) a ↔ fs.ReadsItems (before ++ d' :: after) a := by
  induction fs generalizing before with
  | nil => simp [ReadsItems]
  | cons field rest ih =>
    cases before with
    | nil => simp only [List.nil_append, ReadsItems, h a.1]
    | cons e before => simp only [List.cons_append, ReadsItems, ih h]

/-- A field that is left out might as well be there with its default. -/
theorem reads_default (happart : fs.apart = true) (h : fs.DefaultsTo name d)
    (hnone : members.countP (Member.named [name].contains) = 0) :
    fs.Reads members a ↔ fs.Reads ((.ok name, d) :: members) a := by
  induction fs with
  | nil => exact absurd h not_false
  | cons field rest ih =>
    obtain ⟨hothers, hrest⟩ := apart_cons_iff.mp happart
    rw [DefaultsTo] at h
    cases hname : field.answersTo name with
    | true =>
      rw [if_pos hname] at h
      obtain ⟨hnames, v, habsent, hd⟩ := h
      have hfound : field.found members = [] := by
        rw [← List.length_eq_zero_iff, Field.length_found, hnames, hnone]
      simp only [Reads, Field.found_cons_of_answersTo hname, hfound, Field.reads_cons_iff,
        Field.reads_nil_iff, habsent, hd, reads_cons_of_unknown (hothers name hname),
        Option.some.injEq, Except.ok.injEq, true_and]
    | false =>
      rw [if_neg (by simp [hname])] at h
      simp only [Reads, Field.found_cons_of_not hname, ih hrest h]

theorem knows_of_defaultsTo (h : fs.DefaultsTo name d) : fs.knows name = true := by
  induction fs with
  | nil => exact absurd h not_false
  | cons field rest ih =>
    rw [DefaultsTo] at h
    cases hname : field.answersTo name with
    | true => simp [knows, hname]
    | false =>
      rw [if_neg (by simp [hname])] at h
      simpa [knows, hname] using ih h

theorem ofMembers_default (happart : fs.apart = true) (h : fs.DefaultsTo name d)
    (hnone : members.countP (Member.named [name].contains) = 0) :
    fs.ofMembers members ending = .ok a ↔
      fs.ofMembers ((.ok name, d) :: members) ending = .ok a := by
  have hpass : fs.passes (.ok name, d) = true := by simp [passes, knows_of_defaultsTo h]
  rw [ofMembers_eq_ok_iff happart, ofMembers_eq_ok_iff happart, List.all_cons, hpass,
    Bool.true_and, reads_default happart h hnone]

/-- No field is read from two members. -/
theorem Reads.countP_le (h : fs.Reads members a) {names : List String} (hn : names ∈ fs.groups) :
    members.countP (Member.named names.contains) ≤ 1 := by
  induction fs with
  | nil => cases hn
  | cons field rest ih =>
    rcases List.mem_cons.mp hn with rfl | hn
    · rw [← Field.length_found]
      exact h.1.length_le
    · exact ih h.2 hn

end FieldList

end EventBroker.Json
