import EventBroker.Proofs.Members
import EventBroker.Proofs.Wire

/-! # Requests for events, however they are worded

The same request for an event can be worded in many ways: the members of an object stand in any
order, those with unknown names say nothing, and the time of a rule has two names. `Reworded` is the
closure of these changes at any depth of a document, and a document is read as the same request
however it is reworded (`Reworded.agree`). What a `Part` of a request is says which names are known
in it and what its own parts are.

All laws stand together in `event_request_laws`.
-/
set_option autoImplicit false

namespace EventBroker

namespace Api
open Json

/-! ## Requests by their fields -/

def requestFields : FieldList (String × Option String × List ScheduleRuleRequest × Unit) :=
  .cons (.required "data" Decode.text)
    (.cons (.withDefault "category" (Decode.optional Decode.text) none)
    (.cons (.withDefault "schedule_rules" (Decode.list ScheduleRuleRequest.decode) []) .nil))

def ruleFields : FieldList (String × Nat × Option RecurringOptions × Unit) :=
  .cons (.required "queue" Decode.text)
    (.cons ((Field.required "schedule_for" Decode.word64).orNamed "schedule_at")
    (.cons (.withDefault "recurring_options" (Decode.optional RecurringOptions.decode) none) .nil))

def recurrenceFields : FieldList (Nat × Nat × Unit) :=
  .cons (.required "times" Decode.word32) (.cons (.required "delay" Decode.word64) .nil)

theorem decode_request (d : Document) : EventCreateRequest.decode d =
    (requestFields.decode "EventCreateRequest" d).map
      fun (data, category, scheduleRules, ()) => ⟨data, category, scheduleRules⟩ := rfl

theorem decode_rule (d : Document) : ScheduleRuleRequest.decode d =
    (ruleFields.decode "ScheduleRuleRequest" d).map
      fun (queue, scheduleFor, recurringOptions, ()) =>
        ⟨queue, scheduleFor, recurringOptions⟩ := rfl

/-- The places in a request for an event; a plain one has no parts that are looked at. -/
inductive Part where
  | request
  | rules
  | rule
  | recurrence
  | plain
  deriving DecidableEq, Repr

namespace Part

/-- The names of each field. -/
def fields : Part → List (List String)
  | .request => [["data"], ["category"], ["schedule_rules"]]
  | .rule => [["queue"], ["schedule_for", "schedule_at"], ["recurring_options"]]
  | .recurrence => [["times"], ["delay"]]
  | .rules | .plain => []

/-- The part that a member has the value of. -/
def member : Part → String → Part
  | .request, name => if name = "schedule_rules" then .rules else .plain
  | .rule, name => if name = "recurring_options" then .recurrence else .plain
  | _, _ => .plain

/-- The part that an item is. -/
def item : Part → Nat → Part
  | .request, 2 => .rules
  | .rules, _ => .rule
  | .rule, 2 => .recurrence
  | _, _ => .plain

/-- Two documents are the same as a part of a request. -/
def Agree : Part → Document → Document → Prop
  | .request, d, d' => EventCreateRequest.decode.Agree d d'
  | .rules, d, d' => (Decode.list ScheduleRuleRequest.decode).Agree d d'
  | .rule, d, d' => ScheduleRuleRequest.decode.Agree d d'
  | .recurrence, d, d' => (Decode.optional RecurringOptions.decode).Agree d d'
  | .plain, d, d' => d.outline = d'.outline ∧ d.whenPassed.isNone = d'.whenPassed.isNone

end Part

variable {p : Part} {members members' : List Member} {name name' : String} {d d' : Document}

/-- Two documents are wordings of the same part of a request: anywhere in it, members change places,
members with unknown names come and go, and the time of a rule changes its name. -/
inductive Reworded : Part → Document → Document → Prop
  | refl {p : Part} (d : Document) : Reworded p d d
  | symm {p : Part} {d d' : Document} (h : Reworded p d d') : Reworded p d' d
  | trans {p : Part} {d d' d'' : Document} (h : Reworded p d d') (h' : Reworded p d' d'') :
      Reworded p d d''
  | permuted {p : Part} {members members' : List Member} (h : members.Perm members')
      (ending : MembersEnd) : Reworded p (.object members ending) (.object members' ending)
  | extended {p : Part} {name : String} {d : Document} (hname : name ∉ p.fields.flatten)
      (hd : d.whenPassed = none) (members : List Member) (ending : MembersEnd) :
      Reworded p (.object members ending) (.object ((.ok name, d) :: members) ending)
  | renamed (d : Document) (members : List Member) (ending : MembersEnd) :
      Reworded .rule (.object ((.ok "schedule_for", d) :: members) ending)
        (.object ((.ok "schedule_at", d) :: members) ending)
  | member {p : Part} {name : String} {d d' : Document} (h : Reworded (p.member name) d d')
      (members : List Member) (ending : MembersEnd) :
      Reworded p (.object ((.ok name, d) :: members) ending)
        (.object ((.ok name, d') :: members) ending)
  | item {p : Part} {before : List Document} {d d' : Document}
      (h : Reworded (p.item before.length) d d') (after : List Document) (ending : ItemsEnd) :
      Reworded p (.array (before ++ d :: after) ending) (.array (before ++ d' :: after) ending)

/-! ## What is the same however it is worded -/

namespace Part

theorem Agree.refl (p : Part) (d : Document) : p.Agree d d := by
  cases p with
  | plain => exact ⟨rfl, rfl⟩
  | _ => exact fun _ => Iff.rfl

theorem Agree.symm (h : p.Agree d d') : p.Agree d' d := by
  cases p with
  | plain => exact ⟨h.1.symm, h.2.symm⟩
  | _ => exact fun a => (h a).symm

theorem Agree.trans {d'' : Document} (h : p.Agree d d') (h' : p.Agree d' d'') :
    p.Agree d d'' := by
  cases p with
  | plain => exact ⟨h.1.trans h'.1, h.2.trans h'.2⟩
  | _ => exact fun a => (h a).trans (h' a)

/-- The fields of a record are those of a part, and they look at their values as parts of it. -/
structure Describes {α : Type} (p : Part) (fs : FieldList α) : Prop where
  apart : fs.apart = true
  groups : fs.groups = p.fields
  member : ∀ {name d d'}, (p.member name).Agree d d' → fs.AgreeAt name d d'
  item : ∀ {i d d'}, (p.item i).Agree d d' → fs.AgreeItem i d d'

theorem Describes.unknown {α : Type} {fs : FieldList α} (h : p.Describes fs)
    (hname : name ∉ p.fields.flatten) : fs.knows name = false := by
  rw [FieldList.knows_eq, h.groups, List.contains_eq_mem, decide_eq_false hname]

theorem describes_request : Part.request.Describes requestFields where
  apart := by decide
  groups := rfl
  member {name d d'} h := by
    by_cases hrules : name = "schedule_rules"
    · subst hrules
      exact h
    · rw [Part.member, if_neg hrules] at h
      have hno : (Field.withDefault "schedule_rules" (Decode.list ScheduleRuleRequest.decode)
          []).answersTo name = false := by simpa [Field.answersTo, Field.withDefault] using hrules
      simp only [requestFields, FieldList.AgreeAt, hno, Bool.false_eq_true, if_false]
      split
      · exact shallow_text.agree h.1
      · split
        · exact shallow_text.optional.agree h.1
        · exact h.2
  item {i d d'} h := by
    rcases i with _ | _ | _ | i
    · exact shallow_text.agree h.1
    · exact shallow_text.optional.agree h.1
    · exact h
    · trivial

theorem describes_rule : Part.rule.Describes ruleFields where
  apart := by decide
  groups := rfl
  member {name d d'} h := by
    by_cases hrecurring : name = "recurring_options"
    · subst hrecurring
      exact h
    · rw [Part.member, if_neg hrecurring] at h
      have hno : (Field.withDefault "recurring_options" (Decode.optional RecurringOptions.decode)
          none).answersTo name = false := by
        simpa [Field.answersTo, Field.withDefault] using hrecurring
      simp only [ruleFields, FieldList.AgreeAt, hno, Bool.false_eq_true, if_false]
      split
      · exact shallow_text.agree h.1
      · split
        · exact (shallow_unsigned _ _).agree h.1
        · exact h.2
  item {i d d'} h := by
    rcases i with _ | _ | _ | i
    · exact shallow_text.agree h.1
    · exact (shallow_unsigned _ _).agree h.1
    · exact h
    · trivial

theorem describes_recurrence : Part.recurrence.Describes recurrenceFields where
  apart := by decide
  groups := rfl
  member {name d d'} h := by
    simp only [recurrenceFields, FieldList.AgreeAt]
    split
    · exact (shallow_unsigned _ _).agree h.1
    · split
      · exact (shallow_unsigned _ _).agree h.1
      · exact h.2
  item {i d d'} h := by
    rcases i with _ | _ | i
    · exact (shallow_unsigned _ _).agree h.1
    · exact (shallow_unsigned _ _).agree h.1
    · trivial

/-- Objects are the same as a part if they are the same to its record. -/
theorem agree_object {ending ending' : MembersEnd}
    (hrecord : ∀ {α : Type} {fs : FieldList α}, p.Describes fs → ∀ a : α,
      fs.ofMembers members ending = .ok a ↔ fs.ofMembers members' ending' = .ok a)
    (hplain : p = .plain → (Document.object members ending).whenPassed.isNone =
      (Document.object members' ending').whenPassed.isNone) :
    p.Agree (.object members ending) (.object members' ending') := by
  cases p with
  | request =>
    have h : Decoder.Agree (requestFields.decode "EventCreateRequest") (.object members ending)
      (.object members' ending') := fun a => hrecord describes_request a
    exact h.map _
  | rules => exact fun as => by simp only [list_eq_ok_iff, reduceCtorEq, false_and, exists_false]
  | rule =>
    have h : Decoder.Agree (ruleFields.decode "ScheduleRuleRequest") (.object members ending)
      (.object members' ending') := fun a => hrecord describes_rule a
    exact h.map _
  | recurrence =>
    have h : Decoder.Agree (recurrenceFields.decode "RecurringOptions") (.object members ending)
      (.object members' ending') := fun a => hrecord describes_recurrence a
    exact (h.map _).map some
  | plain => exact ⟨rfl, hplain rfl⟩

/-- An item of an array is the same as a part of it. -/
theorem agree_item {before : List Document} (h : (p.item before.length).Agree d d')
    (after : List Document) (ending : ItemsEnd) :
    p.Agree (.array (before ++ d :: after) ending) (.array (before ++ d' :: after) ending) := by
  have hrecord : ∀ {α : Type} {fs : FieldList α} (record : String), p.Describes fs →
      Decoder.Agree (fs.decode record) (.array (before ++ d :: after) ending)
        (.array (before ++ d' :: after) ending) := fun {α fs} record hfs a => by
    have hitems : fs.ReadsItems (before ++ d :: after) a ↔
        fs.ReadsItems (before ++ d' :: after) a := FieldList.readsItems_item (hfs.item h)
    simp only [FieldList.decode_array_iff, hitems]
  cases p with
  | request => exact (hrecord _ describes_request).map _
  | rules => exact Decoder.Agree.list h before after ending
  | rule => exact (hrecord _ describes_rule).map _
  | recurrence => exact ((hrecord _ describes_recurrence).map _).map some
  | plain =>
    refine ⟨rfl, ?_⟩
    simp only [Document.whenPassed, Option.isNone_or, itemsWhenPassed_isNone, List.all_append,
      List.all_cons, h.2]

end Part

/-- A document is read as the same part of a request however it is worded. -/
theorem Reworded.agree (h : Reworded p d d') : p.Agree d d' := by
  -- one change is one lemma about records; where nothing is looked at, passing over is the same
  induction h with
  | refl d => exact .refl _ d
  | symm _ ih => exact ih.symm
  | trans _ _ ih ih' => exact ih.trans ih'
  | permuted h ending =>
    refine Part.agree_object (fun hfs a => FieldList.ofMembers_perm hfs.apart h) fun _ => ?_
    simp only [Document.whenPassed, Option.isNone_or, membersWhenPassed_isNone, h.all_eq]
  | extended hname hd members ending =>
    refine Part.agree_object (fun hfs a => ?_) fun _ => ?_
    · exact FieldList.ofMembers_unknown hfs.apart (hfs.unknown hname) hd
    · simp only [Document.whenPassed, Document.membersWhenPassed, hd, Option.none_or]
  | renamed d members ending =>
    have hsame : ruleFields.sameField "schedule_for" "schedule_at" = true := by decide
    have h : Decoder.Agree (ruleFields.decode "ScheduleRuleRequest")
        (.object ((.ok "schedule_for", d) :: members) ending)
        (.object ((.ok "schedule_at", d) :: members) ending) := fun a =>
      FieldList.ofMembers_renamed Part.describes_rule.apart hsame
    exact h.map _
  | @member p name d d' h members ending ih =>
    refine Part.agree_object (fun hfs a => FieldList.ofMembers_member hfs.apart (hfs.member ih))
      fun hp => ?_
    subst hp
    simp only [Document.whenPassed, Option.isNone_or, membersWhenPassed_isNone, List.all_cons,
      ih.2]
  | item h after ending ih => exact Part.agree_item ih after ending

/-! ## Twice, not at all and by place -/

/-- A record with a field twice, under whichever names, is none. -/
theorem Part.Describes.not_twice {α β : Type} {fs : FieldList α} (h : p.Describes fs)
    {ending : MembersEnd}
    (htwice : ∃ names ∈ p.fields, 2 ≤ members.countP (Member.named names.contains))
    (record : String) (f : α → β) (b : β) :
    (fs.decode record (.object members ending)).map f ≠ .ok b := by
  intro hb
  obtain ⟨a, hreads, -⟩ := FieldList.reads_of_map_decode h.apart hb
  obtain ⟨names, hnames, hcount⟩ := htwice
  have honce := hreads.countP_le (h.groups ▸ hnames)
  omega

/-- A record without a field might as well have its default. -/
theorem Part.Describes.default {α β : Type} {fs : FieldList α} (h : p.Describes fs)
    (hdefault : fs.DefaultsTo name d) (hnone : members.countP (Member.named [name].contains) = 0)
    (ending : MembersEnd) (record : String) (f : α → β) :
    Decoder.Agree (fun d => (fs.decode record d).map f) (.object members ending)
      (.object ((.ok name, d) :: members) ending) := by
  have hfields : Decoder.Agree (fs.decode record) (.object members ending)
      (.object ((.ok name, d) :: members) ending) := fun a =>
    FieldList.ofMembers_default h.apart hdefault hnone
  exact hfields.map f

theorem request_without_category {ending : MembersEnd} {r : EventCreateRequest}
    (hnone : members.countP (Member.named ["category"].contains) = 0) :
    (EventCreateRequest.decode (.object members ending) = .ok r ↔
      EventCreateRequest.decode (.object ((.ok "category", .null) :: members) ending) = .ok r) ∧
    (EventCreateRequest.decode (.object members ending) = .ok r → r.category = none) := by
  have hdefault : requestFields.DefaultsTo "category" .null := ⟨rfl, none, rfl, rfl⟩
  constructor
  · exact Part.describes_request.default hdefault hnone ending _ _ r
  · intro hr
    obtain ⟨⟨data, category, rules, _⟩, hreads, rfl⟩ :=
      FieldList.reads_of_map_decode Part.describes_request.apart hr
    exact (Option.some.inj (hreads.2.1.absent hnone)).symm

theorem request_without_rules {ending : MembersEnd} {r : EventCreateRequest}
    (hnone : members.countP (Member.named ["schedule_rules"].contains) = 0) :
    (EventCreateRequest.decode (.object members ending) = .ok r ↔ EventCreateRequest.decode
      (.object ((.ok "schedule_rules", .array [] .closed) :: members) ending) = .ok r) ∧
    (EventCreateRequest.decode (.object members ending) = .ok r → r.scheduleRules = []) := by
  have hdefault : requestFields.DefaultsTo "schedule_rules" (.array [] .closed) :=
    ⟨rfl, [], rfl, rfl⟩
  constructor
  · exact Part.describes_request.default hdefault hnone ending _ _ r
  · intro hr
    obtain ⟨⟨data, category, rules, _⟩, hreads, rfl⟩ :=
      FieldList.reads_of_map_decode Part.describes_request.apart hr
    exact (Option.some.inj (hreads.2.2.1.absent hnone)).symm

theorem rule_without_recurrence {ending : MembersEnd} {r : ScheduleRuleRequest}
    (hnone : members.countP (Member.named ["recurring_options"].contains) = 0) :
    (ScheduleRuleRequest.decode (.object members ending) = .ok r ↔ ScheduleRuleRequest.decode
      (.object ((.ok "recurring_options", .null) :: members) ending) = .ok r) ∧
    (ScheduleRuleRequest.decode (.object members ending) = .ok r → r.recurringOptions = none) := by
  have hdefault : ruleFields.DefaultsTo "recurring_options" .null := ⟨rfl, none, rfl, rfl⟩
  constructor
  · exact Part.describes_rule.default hdefault hnone ending _ _ r
  · intro hr
    obtain ⟨⟨queue, time, recurring, _⟩, hreads, rfl⟩ :=
      FieldList.reads_of_map_decode Part.describes_rule.apart hr
    exact (Option.some.inj (hreads.2.2.1.absent hnone)).symm

/-- A request as an array: the payload, then the category, then the rules; the last two may be left
out. -/
theorem request_array_iff {ds : List Document} {ending : ItemsEnd} {r : EventCreateRequest} :
    EventCreateRequest.decode (.array ds ending) = .ok r ↔ ending = .closed ∧
      ∃ data, Decode.text data = .ok r.data ∧
        (ds = [data] ∧ r.category = none ∧ r.scheduleRules = [] ∨
          ∃ category, Decode.optional Decode.text category = .ok r.category ∧
            (ds = [data, category] ∧ r.scheduleRules = [] ∨
              ∃ rules, Decode.list ScheduleRuleRequest.decode rules = .ok r.scheduleRules ∧
                ds = [data, category, rules])) := by
  obtain ⟨data, category, rules⟩ := r
  rw [decode_request, FieldList.map_decode_array_iff]
  refine and_congr_right' ?_
  rcases ds with _ | ⟨d, _ | ⟨c, _ | ⟨rs, _ | ⟨extra, rest⟩⟩⟩⟩
  all_goals simp [requestFields, FieldList.ReadsItems, Field.required, Field.withDefault,
    and_assoc, eq_comm (a := none)]

/-- A rule as an array: the queue, then the time, then the recurrence, which may be left out. -/
theorem rule_array_iff {ds : List Document} {ending : ItemsEnd} {r : ScheduleRuleRequest} :
    ScheduleRuleRequest.decode (.array ds ending) = .ok r ↔ ending = .closed ∧
      ∃ queue time, Decode.text queue = .ok r.queue ∧ Decode.word64 time = .ok r.scheduleFor ∧
        (ds = [queue, time] ∧ r.recurringOptions = none ∨
          ∃ recurrence, Decode.optional RecurringOptions.decode recurrence =
            .ok r.recurringOptions ∧ ds = [queue, time, recurrence]) := by
  obtain ⟨queue, time, recurring⟩ := r
  rw [decode_rule, FieldList.map_decode_array_iff]
  refine and_congr_right' ?_
  rcases ds with _ | ⟨q, _ | ⟨t, _ | ⟨o, _ | ⟨extra, rest⟩⟩⟩⟩
  all_goals simp [ruleFields, FieldList.ReadsItems, Field.required, Field.withDefault,
    Field.orNamed, and_assoc, eq_comm (a := none)]

/-! ## Written and read again -/

def ScheduleRuleRequest.InRange (r : ScheduleRuleRequest) : Prop :=
  r.scheduleFor ≤ word64Max ∧ ∀ o ∈ r.recurringOptions, o.InRange

def EventCreateRequest.InRange (r : EventCreateRequest) : Prop :=
  ∀ rule ∈ r.scheduleRules, rule.InRange

theorem inRange_of_recurrence {o : RecurringOptions} (h : RecurringOptions.decode d = .ok o) :
    o.InRange := by
  obtain ⟨⟨times, delay, _⟩, hfields, rfl⟩ := map_eq_ok_iff.mp h
  obtain ⟨htimes, hdelay, -⟩ := FieldList.decode_obtains Part.describes_recurrence.apart hfields
  obtain ⟨d, hd⟩ := htimes.decoded rfl rfl
  obtain ⟨d', hd'⟩ := hdelay.decoded rfl rfl
  exact ⟨le_of_unsigned hd, le_of_unsigned hd'⟩

theorem inRange_of_rule {r : ScheduleRuleRequest} (h : ScheduleRuleRequest.decode d = .ok r) :
    r.InRange := by
  obtain ⟨⟨queue, time, recurring, _⟩, hfields, rfl⟩ := map_eq_ok_iff.mp h
  obtain ⟨-, htime, hrecurring, -⟩ := FieldList.decode_obtains Part.describes_rule.apart hfields
  refine ⟨?_, fun o ho => ?_⟩
  · obtain ⟨d, hd⟩ := htime.decoded rfl rfl
    exact le_of_unsigned hd
  · obtain rfl : recurring = some o := ho
    rcases hrecurring.decoded_or_default with ⟨d, hd⟩ | hnone
    · exact inRange_of_recurrence (decode_of_optional hd)
    · cases hnone

theorem inRange_of_request {r : EventCreateRequest} (h : EventCreateRequest.decode d = .ok r) :
    r.InRange := by
  obtain ⟨⟨data, category, rules, _⟩, hfields, rfl⟩ := map_eq_ok_iff.mp h
  obtain ⟨-, -, hrules, -⟩ := FieldList.decode_obtains Part.describes_request.apart hfields
  intro rule hrule
  rcases hrules.decoded_or_default with ⟨d, hd⟩ | hnil
  · obtain ⟨item, hitem⟩ := exists_item hd hrule
    exact inRange_of_rule hitem
  · subst hnil
    cases hrule

theorem means_ruleRequest {r : ScheduleRuleRequest} (h : r.InRange) :
    Means ScheduleRuleRequest.decode r.toJson r := by
  obtain ⟨queue, scheduleFor, recurring⟩ := r
  have hqueue := means_text queue
  have htime := means_word64 h.1
  have hrecurring : Means (Decode.optional RecurringOptions.decode)
      ((recurring.map RecurringOptions.toJson).getD .null) recurring := by
    cases recurring with
    | none => exact ⟨trivial, rfl⟩
    | some o => exact (means_recurring (h.2 o rfl)).optional fun he => Json.noConfusion he
  exact FieldList.Writes.means
    (.present hqueue (.present htime (.present hrecurring .nil rfl) rfl) rfl) _ _

theorem means_request {r : EventCreateRequest} (h : r.InRange) :
    Means EventCreateRequest.decode r.toJson r := by
  obtain ⟨data, category, rules⟩ := r
  have hdata := means_text data
  have hcategory : Means (Decode.optional Decode.text) (.optional category) category := by
    cases category with
    | none => exact ⟨trivial, rfl⟩
    | some c => exact (means_text c).optional fun he => Json.noConfusion he
  have hrules : Means (Decode.list ScheduleRuleRequest.decode)
      (.array (rules.map ScheduleRuleRequest.toJson)) (rules.map id) :=
    means_list fun r hr => means_ruleRequest (h r hr)
  rw [List.map_id] at hrules
  exact FieldList.Writes.means
    (.present hdata (.present hcategory (.present hrules .nil rfl) rfl) rfl) _ _

/-! ## The laws -/

/-- Whether a document is a request for an event or a rule, and which, is the same however it is
worded. A field that is there twice, under whichever names, makes it neither. A category, a
recurrence or rules that are left out are none, none and the empty list. An array is read by place,
and only the fields with defaults may be missing at its end. What was read is written so that the
same is read again, with the same queue, time and recurrence for the broker. -/
theorem event_request_laws :
    (∀ v : Json, v.toDocument.whenPassed = none) ∧
    (∀ d d', Reworded .request d d' → ∀ r,
      EventCreateRequest.decode d = .ok r ↔ EventCreateRequest.decode d' = .ok r) ∧
    (∀ d d', Reworded .rule d d' → ∀ r,
      ScheduleRuleRequest.decode d = .ok r ↔ ScheduleRuleRequest.decode d' = .ok r) ∧
    (∀ d rules, Decode.list ScheduleRuleRequest.decode d = .ok rules ↔ ∃ ds, d = .array ds .closed ∧
      List.Forall₂ (fun d rule => ScheduleRuleRequest.decode d = .ok rule) ds rules) ∧
    (∀ members ending,
      (∃ names ∈ Part.request.fields, 2 ≤ members.countP (Member.named names.contains)) →
        ∀ r, EventCreateRequest.decode (.object members ending) ≠ .ok r) ∧
    (∀ members ending,
      (∃ names ∈ Part.rule.fields, 2 ≤ members.countP (Member.named names.contains)) →
        ∀ r, ScheduleRuleRequest.decode (.object members ending) ≠ .ok r) ∧
    (∀ members ending,
      (∃ names ∈ Part.recurrence.fields, 2 ≤ members.countP (Member.named names.contains)) →
        ∀ o, RecurringOptions.decode (.object members ending) ≠ .ok o) ∧
    (∀ members ending r, members.countP (Member.named ["category"].contains) = 0 →
      (EventCreateRequest.decode (.object members ending) = .ok r ↔
        EventCreateRequest.decode (.object ((.ok "category", .null) :: members) ending) = .ok r) ∧
      (EventCreateRequest.decode (.object members ending) = .ok r → r.category = none)) ∧
    (∀ members ending r, members.countP (Member.named ["schedule_rules"].contains) = 0 →
      (EventCreateRequest.decode (.object members ending) = .ok r ↔ EventCreateRequest.decode
        (.object ((.ok "schedule_rules", .array [] .closed) :: members) ending) = .ok r) ∧
      (EventCreateRequest.decode (.object members ending) = .ok r → r.scheduleRules = [])) ∧
    (∀ members ending r, members.countP (Member.named ["recurring_options"].contains) = 0 →
      (ScheduleRuleRequest.decode (.object members ending) = .ok r ↔ ScheduleRuleRequest.decode
        (.object ((.ok "recurring_options", .null) :: members) ending) = .ok r) ∧
      (ScheduleRuleRequest.decode (.object members ending) = .ok r → r.recurringOptions = none)) ∧
    (∀ ds ending r, EventCreateRequest.decode (.array ds ending) = .ok r ↔ ending = .closed ∧
      ∃ data, Decode.text data = .ok r.data ∧
        (ds = [data] ∧ r.category = none ∧ r.scheduleRules = [] ∨
          ∃ category, Decode.optional Decode.text category = .ok r.category ∧
            (ds = [data, category] ∧ r.scheduleRules = [] ∨
              ∃ rules, Decode.list ScheduleRuleRequest.decode rules = .ok r.scheduleRules ∧
                ds = [data, category, rules]))) ∧
    (∀ ds ending r, ScheduleRuleRequest.decode (.array ds ending) = .ok r ↔ ending = .closed ∧
      ∃ queue time, Decode.text queue = .ok r.queue ∧ Decode.word64 time = .ok r.scheduleFor ∧
        (ds = [queue, time] ∧ r.recurringOptions = none ∨
          ∃ recurrence, Decode.optional RecurringOptions.decode recurrence =
            .ok r.recurringOptions ∧ ds = [queue, time, recurrence])) ∧
    (∀ d r, EventCreateRequest.decode d = .ok r →
      EventCreateRequest.decode r.toJson.toDocument = .ok r ∧
      decodeFront EventCreateRequest.decode r.toJson.bytes = .ok r ∧
      (decodeFront EventCreateRequest.decode r.toJson.bytes).map (·.toEvent.rules) =
        .ok (r.scheduleRules.map fun rule => ⟨rule.queue, rule.scheduleFor,
          rule.recurringOptions.map fun o => ⟨o.times, o.delay⟩⟩)) ∧
    ∀ d r, ScheduleRuleRequest.decode d = .ok r →
      ScheduleRuleRequest.decode r.toJson.toDocument = .ok r ∧
      decodeFront ScheduleRuleRequest.decode r.toJson.bytes = .ok r ∧
      (decodeFront ScheduleRuleRequest.decode r.toJson.bytes).map (·.toRule) =
        .ok ⟨r.queue, r.scheduleFor, r.recurringOptions.map fun o => ⟨o.times, o.delay⟩⟩ := by
  refine ⟨whenPassed_toDocument, fun _ _ h => h.agree, fun _ _ h => h.agree,
    fun _ _ => list_eq_ok_iff, fun _ _ h => Part.describes_request.not_twice h _ _,
    fun _ _ h => Part.describes_rule.not_twice h _ _,
    fun _ _ h => Part.describes_recurrence.not_twice h _ _,
    fun _ _ _ h => request_without_category h, fun _ _ _ h => request_without_rules h,
    fun _ _ _ h => rule_without_recurrence h, fun _ _ _ => request_array_iff,
    fun _ _ _ => rule_array_iff, fun d r h => ?_, fun d r h => ?_⟩
  · have hmeans := means_request (inRange_of_request h)
    refine ⟨hmeans.read, hmeans.front, ?_⟩
    rw [hmeans.front]
    rfl
  · have hmeans := means_ruleRequest (inRange_of_rule h)
    refine ⟨hmeans.read, hmeans.front, ?_⟩
    rw [hmeans.front]
    rfl

/-- A request with one rule. -/
def wording : Json :=
  .object [("data", .string "x"), ("schedule_rules",
    .array [.object [("queue", .string "jobs"), ("schedule_for", .number 5)]])]

/-- The same with everything in another order, the other name of the time and a note. -/
def otherWording : Json :=
  .object [("schedule_rules", .array [.object [("schedule_at", .number 5),
    ("note", .object [("a", .array [.null])]), ("queue", .string "jobs")]]), ("data", .string "x")]

theorem reworded_wording : Reworded .request otherWording.toDocument wording.toDocument := by
  have hnote : Reworded .rule
      (.object (toMembers [("schedule_at", .number 5), ("queue", .string "jobs")]) .closed)
      (.object (toMembers [("note", .object [("a", .array [.null])]), ("schedule_at", .number 5),
        ("queue", .string "jobs")]) .closed) :=
    .extended (by decide) rfl _ _
  have hrule : Reworded .rule
      (.object (toMembers [("schedule_at", .number 5), ("note", .object [("a", .array [.null])]),
        ("queue", .string "jobs")]) .closed)
      (.object (toMembers [("queue", .string "jobs"), ("schedule_for", .number 5)]) .closed) :=
    .trans (.permuted (.swap _ _ _) _) (.trans hnote.symm
      (.trans (.symm (.renamed _ _ _)) (.permuted (.swap _ _ _) _)))
  have hrules := @Reworded.item .rules [] _ _ hrule [] .closed
  exact .trans (@Reworded.member .request "schedule_rules" _ _ hrules _ _)
    (.permuted (.swap _ _ _) _)

theorem event_request_laws_once :
    Reworded .request otherWording.toDocument wording.toDocument ∧
    EventCreateRequest.decode otherWording.toDocument = .ok ⟨"x", none, [⟨"jobs", 5, none⟩]⟩ ∧
    (∃ names ∈ Part.rule.fields, 2 ≤ (toMembers [("schedule_for", .number 5),
      ("queue", .string "jobs"), ("schedule_at", .number 5)]).countP
        (Member.named names.contains)) ∧
    (∀ r, ScheduleRuleRequest.decode (.object (toMembers [("schedule_for", .number 5),
      ("queue", .string "jobs"), ("schedule_at", .number 5)]) .closed) ≠ .ok r) ∧
    (toMembers [("data", .string "x")]).countP (Member.named ["category"].contains) = 0 ∧
    EventCreateRequest.decode (.object (toMembers [("category", .null), ("data", .string "x")])
      .closed) = .ok ⟨"x", none, []⟩ ∧
    EventCreateRequest.decode (.array [.string (.ok "x"), .null] .closed) = .ok ⟨"x", none, []⟩ ∧
    decodeFront EventCreateRequest.decode
      (EventCreateRequest.toJson ⟨"x", none, [⟨"jobs", 5, none⟩]⟩).bytes =
        .ok ⟨"x", none, [⟨"jobs", 5, none⟩]⟩ := by
  obtain ⟨-, hreworded, -, -, -, htwice, -, hcategory, -, -, harray, -, hread, -⟩ :=
    event_request_laws
  have hother : EventCreateRequest.decode otherWording.toDocument =
      .ok ⟨"x", none, [⟨"jobs", 5, none⟩]⟩ := (hreworded _ _ reworded_wording _).mpr rfl
  have hboth : ∃ names ∈ Part.rule.fields, 2 ≤ (toMembers [("schedule_for", .number 5),
      ("queue", .string "jobs"), ("schedule_at", .number 5)]).countP
        (Member.named names.contains) :=
    ⟨["schedule_for", "schedule_at"], by decide, by decide⟩
  have hnone : (toMembers [("data", .string "x")]).countP
      (Member.named ["category"].contains) = 0 := by decide
  have hdefault := ((hcategory _ .closed ⟨"x", none, []⟩ hnone).1).mp rfl
  refine ⟨reworded_wording, hother, hboth, htwice _ _ hboth, hnone, hdefault, ?_,
    (hread _ _ hother).2.1⟩
  exact (harray _ _ _).mpr ⟨rfl, .string (.ok "x"), rfl,
    .inr ⟨.null, rfl, .inl ⟨rfl, rfl⟩⟩⟩

end Api

end EventBroker
