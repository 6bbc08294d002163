import EventBroker.Gateway
import EventBroker.Proofs.Slots
import Mathlib.Data.List.Perm.Basic

/-! # Who is served

`Serves g live` says that a gateway serves the subscriptions in `live` and nobody else: each of them
has a mailbox of its own and, as long as the gateway has not been dropped, its slot in its category.
Subscribing adds one, giving up takes one away, and nothing else changes who is served.

What a subscription has not been given yet is `waiting`. Publishing appends to it if the category is
right and there is room (`Serves.waiting_publish`), receiving takes from its front; nothing that is
done to one subscription touches what waits for another.
-/
set_option autoImplicit false

namespace EventBroker

/-- A category after the subscriber in a slot was taken out. -/
def Category.without (c : Category) (slot : Nat) : Category :=
  Category.publish { c with slots := c.slots.remove slot }

namespace Gateway

variable {α : Type} {g g' : Gateway α} {live : List Subscription} {s s' : Subscription}

/-! ## Categories by their names -/

theorem name_of_find? {name : String} {c : Category} (h : g.find? name = some c) :
    c ∈ g.categories ∧ c.name = name :=
  ⟨List.mem_of_find?_eq_some h, by simpa using List.find?_some h⟩

theorem find?_putCategory (g : Gateway α) (c : Category) (name : String) :
    (g.putCategory c).find? name = if name = c.name then some c else g.find? name := by
  unfold putCategory find?
  split
  · next h =>
    rw [List.find?_map]
    simp only [List.any_eq_true, beq_iff_eq] at h
    by_cases hn : name = c.name
    · subst hn
      obtain ⟨old, hold, he⟩ := h
      have hf : ∃ first, g.categories.find? (·.name == c.name) = some first := by
        rw [← Option.isSome_iff_exists, List.find?_isSome]
        exact ⟨old, hold, beq_iff_eq.mpr he⟩
      obtain ⟨first, hf⟩ := hf
      have hcomp : ((fun x : Category => x.name == c.name) ∘ fun old : Category =>
          if (old.name == c.name) = true then c else old) = fun x => x.name == c.name := by
        funext old
        simp only [Function.comp_apply]
        split
        · next h => simp [h]
        · rfl
      have hfirst := List.find?_some hf
      rw [hcomp, hf, if_pos rfl, Option.map_some, if_pos hfirst]
    · have hcomp : ((fun x : Category => x.name == name) ∘ fun old : Category =>
          if (old.name == c.name) = true then c else old) = fun x => x.name == name := by
        funext old
        simp only [Function.comp_apply]
        split
        · next h =>
          rw [beq_iff_eq] at h
          rw [h]
        · rfl
      rw [hcomp, if_neg hn]
      cases hf : g.categories.find? (·.name == name) with
      | none => rfl
      | some first =>
        have hfirst : first.name = name := by simpa using List.find?_some hf
        simp [hfirst, hn]
  · next h =>
    rw [List.find?_append]
    by_cases hn : name = c.name
    · subst hn
      have hf : g.categories.find? (·.name == c.name) = none := by
        rw [List.find?_eq_none]
        intro old hold he
        exact h (List.any_eq_true.mpr ⟨old, hold, he⟩)
      simp [hf]
    · rw [if_neg hn]
      have hne : (c.name == name) = false := by simpa using Ne.symm hn
      simp [hne]

theorem find?_eraseCategory (g : Gateway α) (name name' : String) :
    (g.eraseCategory name).find? name' = if name' = name then none else g.find? name' := by
  simp only [eraseCategory, find?, List.find?_filter]
  split
  · next h =>
    subst h
    rw [List.find?_eq_none]
    simp
  · next h =>
    congr 1
    funext c
    cases hc : c.name == name' with
    | false => simp
    | true =>
      rw [beq_iff_eq] at hc
      simp [hc, h]

theorem mem_putCategory {c c' : Category} (h : c' ∈ (g.putCategory c).categories) :
    c' = c ∨ c' ∈ g.categories := by
  unfold putCategory at h
  split at h
  · obtain ⟨old, hold, rfl⟩ := List.mem_map.mp h
    split
    · exact .inl rfl
    · exact .inr hold
  · rcases List.mem_append.mp h with h | h
    · exact .inr h
    · exact .inl (List.mem_singleton.mp h)

theorem putCategory_eq (g : Gateway α) (c : Category) :
    g.putCategory c = { g with categories := (g.putCategory c).categories } := by
  unfold putCategory
  split <;> rfl

@[simp] theorem putCategory_subscribers (g : Gateway α) (c : Category) :
    (g.putCategory c).subscribers = g.subscribers := by rw [putCategory_eq]

@[simp] theorem putCategory_mailboxes (g : Gateway α) (c : Category) :
    (g.putCategory c).mailboxes = g.mailboxes := by rw [putCategory_eq]

@[simp] theorem putCategory_dropped (g : Gateway α) (c : Category) :
    (g.putCategory c).dropped = g.dropped := by rw [putCategory_eq]

@[simp] theorem putCategory_capacity (g : Gateway α) (c : Category) :
    (g.putCategory c).capacity = g.capacity := by rw [putCategory_eq]

/-! ## What waits for a subscription -/

/-- What has been pushed to a subscription and not been taken. -/
def waiting (g : Gateway α) (s : Subscription) : List α :=
  ((g.mailbox? s).map (·.messages.toList)).getD []

/-- Whether a subscription holds its slot. -/
def registers (g : Gateway α) (s : Subscription) : Bool :=
  (g.find? s.category).any fun c => c.slots.get? s.slot == some s.mailbox

theorem registers_iff : g.registers s = true ↔
    ∃ c, g.find? s.category = some c ∧ c.slots.get? s.slot = some s.mailbox := by
  simp only [registers, Option.any_eq_true, beq_iff_eq]

/-! ## The invariant -/

structure Serves (g : Gateway α) (live : List Subscription) : Prop where
  distinct : (live.map (·.mailbox)).Nodup
  mailboxes : (g.mailboxes.map (·.serial)).Perm (live.map (·.mailbox))
  below : ∀ s ∈ live, s.mailbox < g.nextMailbox
  sound : ∀ c ∈ g.categories, c.slots.Sound ∧ c.published = c.slots.values
  registered : g.dropped = false → ∀ s, s ∈ live ↔ g.registers s = true
  closed : g.dropped = true → g.categories = []
  count : g.dropped = false → g.subscribers = live.length

namespace Serves

theorem new (capacity : Nat) : (Gateway.new capacity : Gateway α).Serves [] where
  distinct := List.nodup_nil
  mailboxes := .refl _
  below _ h := absurd h List.not_mem_nil
  sound _ h := absurd h List.not_mem_nil
  registered _ s := by simp [Gateway.new, registers, find?]
  closed _ := rfl
  count _ := rfl

theorem perm {live' : List Subscription} (h : g.Serves live) (hp : live.Perm live') :
    g.Serves live' where
  distinct := (hp.map _).nodup_iff.mp h.distinct
  mailboxes := h.mailboxes.trans (hp.map _)
  below s hs := h.below s (hp.mem_iff.mpr hs)
  sound := h.sound
  registered hd s := hp.mem_iff.symm.trans (h.registered hd s)
  closed := h.closed
  count hd := (h.count hd).trans hp.length_eq

theorem eq_of_mailbox (h : g.Serves live) (hs : s ∈ live) (hs' : s' ∈ live)
    (he : s.mailbox = s'.mailbox) : s = s' :=
  List.inj_on_of_nodup_map h.distinct hs hs' he

theorem nodup (h : g.Serves live) : live.Nodup := h.distinct.of_map _

theorem nodup_mailboxes (h : g.Serves live) : (g.mailboxes.map (·.serial)).Nodup :=
  h.mailboxes.nodup_iff.mpr h.distinct

theorem exists_mailbox (h : g.Serves live) (hs : s ∈ live) : ∃ m, g.mailbox? s = some m := by
  have hm : s.mailbox ∈ g.mailboxes.map (·.serial) :=
    h.mailboxes.mem_iff.mpr (List.mem_map_of_mem hs)
  obtain ⟨m, hm, he⟩ := List.mem_map.mp hm
  rw [← Option.isSome_iff_exists, mailbox?, List.find?_isSome]
  exact ⟨m, hm, beq_iff_eq.mpr he⟩

/-- Changes of what is in the mailboxes do not change who is served. -/
theorem of_mailboxes (h : g.Serves live) {mailboxes : List (Mailbox α)}
    (hm : mailboxes.map (·.serial) = g.mailboxes.map (·.serial)) :
    { g with mailboxes }.Serves live where
  distinct := h.distinct
  mailboxes := hm ▸ h.mailboxes
  below := h.below
  sound := h.sound
  registered := h.registered
  closed := h.closed
  count := h.count

theorem drop (h : g.Serves live) : g.drop.Serves live where
  distinct := h.distinct
  mailboxes := h.mailboxes
  below := h.below
  sound _ hc := absurd hc List.not_mem_nil
  registered hd := Bool.noConfusion hd
  closed _ := rfl
  count hd := Bool.noConfusion hd

end Serves

/-! ## Subscribing -/

/-- A category after a subscriber was added to it. -/
def joined (g : Gateway α) (category : String) : Category :=
  let c := (g.find? category).getD ⟨category, .empty, []⟩
  Category.publish { c with slots := (c.slots.insert g.nextMailbox).2 }

theorem subscribe_spec {category : String} (h : g.subscribe category = .ok (s, g')) :
    s = ⟨category, (((g.find? category).getD ⟨category, .empty, []⟩).slots.insert g.nextMailbox).1,
      g.nextMailbox⟩ ∧
    g' = { g.putCategory (g.joined category) with
      subscribers := g.subscribers + 1
      mailboxes := g.mailboxes ++ [⟨g.nextMailbox, .empty⟩]
      nextMailbox := g.nextMailbox + 1 } := by
  unfold subscribe at h
  split at h
  · cases h
  · obtain ⟨rfl, rfl⟩ := Prod.mk.inj (Except.ok.inj h)
    refine ⟨rfl, ?_⟩
    simp only [putCategory_subscribers, putCategory_mailboxes]
    rfl

theorem joined_name (g : Gateway α) (category : String) : (g.joined category).name = category := by
  unfold joined
  cases h : g.find? category with
  | none => rfl
  | some c => exact (name_of_find? h).2

namespace Serves

theorem sound_getD (h : g.Serves live) (category : String) :
    ((g.find? category).getD ⟨category, .empty, []⟩).slots.Sound := by
  cases hf : g.find? category with
  | none => exact .empty
  | some c => exact (h.sound c (name_of_find? hf).1).1

/-- What is registered once a subscriber has been added: the new one, and who was before. -/
theorem registers_subscribe (h : g.Serves live) {category : String}
    (hs : g.subscribe category = .ok (s, g')) (s' : Subscription) :
    g'.registers s' = true ↔ s' = s ∨ g.registers s' = true := by
  obtain ⟨rfl, rfl⟩ := subscribe_spec hs
  have hfind : ∀ name, Gateway.find? { g.putCategory (g.joined category) with
      subscribers := g.subscribers + 1
      mailboxes := g.mailboxes ++ [⟨g.nextMailbox, .empty⟩]
      nextMailbox := g.nextMailbox + 1 } name =
        if name = category then some (g.joined category) else g.find? name := by
    intro name
    have hput := find?_putCategory g (g.joined category) name
    rwa [joined_name] at hput
  have hslots := h.sound_getD category
  rw [registers_iff, hfind]
  by_cases hc : s'.category = category
  · -- in the category itself: its slots are those of before and one more
    have hold : ((g.find? category).getD ⟨category, .empty, []⟩).slots.get? s'.slot =
        some s'.mailbox ↔ g.registers s' = true := by
      rw [registers_iff, hc]
      cases g.find? category with
      | none => simp [SlotTable.get?, SlotTable.empty]
      | some c => simp
    have hnew := hslots.get?_insert_self g.nextMailbox
    rw [if_pos hc]
    simp only [Option.some.injEq, exists_eq_left']
    rw [show (g.joined category).slots = (((g.find? category).getD ⟨category, .empty, []⟩).slots.insert
      g.nextMailbox).2 from rfl, hslots.get?_insert, ← hold]
    split
    · next hslot =>
      rw [hslot, hnew]
      obtain ⟨category', slot', mailbox'⟩ := s'
      simp only [Option.some.injEq, Subscription.mk.injEq] at hc hslot ⊢
      simp [hc, hslot, eq_comm]
    · next hslot =>
      constructor
      · exact .inr
      · rintro (rfl | hg)
        · exact absurd rfl hslot
        · exact hg
  · rw [if_neg hc, ← registers_iff]
    constructor
    · exact .inr
    · rintro (rfl | hg)
      · exact absurd rfl hc
      · exact hg

theorem subscribe (h : g.Serves live) (hd : g.dropped = false) {category : String}
    (hs : g.subscribe category = .ok (s, g')) : g'.Serves (s :: live) := by
  have hreg := h.registers_subscribe hs
  obtain ⟨hse, hge⟩ := subscribe_spec hs
  have hbox : s.mailbox = g.nextMailbox := by rw [hse]
  refine ⟨?_, ?_, ?_, ?_, ?_, ?_, ?_⟩
  · rw [List.map_cons, List.nodup_cons]
    refine ⟨fun hm => ?_, h.distinct⟩
    obtain ⟨s', hs', he⟩ := List.mem_map.mp hm
    have := h.below s' hs'
    omega
  · rw [hge]
    simp only [List.map_append, List.map_cons, List.map_nil, hbox]
    exact List.perm_append_comm.trans (h.mailboxes.cons _)
  · rw [hge, List.forall_mem_cons]
    refine ⟨by simp [hbox], fun s' hs' => Nat.lt_succ_of_lt (h.below s' hs')⟩
  · intro c hc
    rw [hge] at hc
    rcases mem_putCategory hc with rfl | hc
    · exact ⟨(h.sound_getD category).insert g.nextMailbox, rfl⟩
    · exact h.sound c hc
  · intro _ s'
    rw [hreg, List.mem_cons, h.registered hd]
  · intro hd'
    rw [hge] at hd'
    simp [hd] at hd'
  · intro _
    rw [hge]
    exact congrArg (· + 1) (h.count hd)

theorem waiting_subscribe (h : g.Serves live) {category : String}
    (hs : g.subscribe category = .ok (s, g')) :
    g'.waiting s = [] ∧ ∀ s' ∈ live, g'.waiting s' = g.waiting s' := by
  obtain ⟨rfl, rfl⟩ := subscribe_spec hs
  refine ⟨?_, fun s' hs' => ?_⟩
  · have hnone : g.mailboxes.find? (·.serial == g.nextMailbox) = none := by
      rw [List.find?_eq_none]
      intro m hm he
      obtain ⟨s', hs', hb⟩ := List.mem_map.mp
        (h.mailboxes.mem_iff.mp (List.mem_map_of_mem (f := (·.serial)) hm))
      have := h.below s' hs'
      rw [beq_iff_eq] at he
      omega
    simp [waiting, mailbox?, List.find?_append, hnone]
  · obtain ⟨m, hm⟩ := h.exists_mailbox hs'
    simp only [waiting, mailbox?] at hm ⊢
    rw [List.find?_append, hm]
    rfl

end Serves

/-! ## Giving up -/

theorem waiting_discard (g : Gateway α) (mailbox : Nat) (hs : s.mailbox ≠ mailbox) :
    (g.discard mailbox).waiting s = g.waiting s := by
  simp only [waiting, mailbox?, discard, List.find?_filter]
  congr 3
  funext m
  cases hm : m.serial == s.mailbox with
  | false => simp
  | true =>
    rw [beq_iff_eq] at hm
    simp [hm, hs]

/-- A gateway after a subscriber was taken out of a category: the category goes with its last one.
-/
def replaced (g : Gateway α) (c : Category) : Gateway α :=
  if c.slots.isEmpty then g.eraseCategory c.name else g.putCategory c

theorem replaced_eq (g : Gateway α) (c : Category) :
    g.replaced c = { g with categories := (g.replaced c).categories } := by
  unfold replaced
  split
  · rfl
  · exact putCategory_eq g c

/-- A category without subscribers registers nobody, whether it is there or not. -/
theorem find?_replaced (g : Gateway α) (c : Category) (name : String) (slot : Nat) :
    (((g.replaced c).find? name).bind fun c => c.slots.get? slot) =
      if name = c.name then c.slots.get? slot
      else (g.find? name).bind fun c => c.slots.get? slot := by
  unfold replaced
  split
  · next he =>
    rw [find?_eraseCategory]
    split
    · exact (SlotTable.isEmpty_iff.mp he slot).symm
    · rfl
  · rw [find?_putCategory]
    split <;> rfl

theorem registers_iff_bind : g.registers s = true ↔
    ((g.find? s.category).bind fun c => c.slots.get? s.slot) = some s.mailbox := by
  rw [registers_iff]
  cases g.find? s.category <;> simp

namespace Serves

theorem unsubscribe_dropped (hd : g.dropped = true) (s : Subscription) :
    g.unsubscribe s = .ok (false, g.discard s.mailbox) := by
  unfold Gateway.unsubscribe
  exact if_pos hd

theorem unsubscribe_spec (h : g.Serves live) (hd : g.dropped = false) (hs : s ∈ live) :
    ∃ c, g.find? s.category = some c ∧ c.slots.get? s.slot = some s.mailbox ∧
      g.unsubscribe s = .ok (true,
        { (g.discard s.mailbox).replaced (c.without s.slot) with
          subscribers := g.subscribers - 1 }) := by
  obtain ⟨c, hc, hslot⟩ := registers_iff.mp ((h.registered hd s).mp hs)
  have hname := (name_of_find? hc).2
  refine ⟨c, hc, hslot, ?_⟩
  have hsub : g.subscribers ≠ 0 := by
    rw [h.count hd]
    exact Nat.ne_of_gt (List.length_pos_of_mem hs)
  have hc' : (g.discard s.mailbox).find? s.category = some c := hc
  have hsubs : ((g.discard s.mailbox).replaced (c.without s.slot)).subscribers =
      g.subscribers := by
    rw [replaced_eq]
    rfl
  unfold Gateway.unsubscribe deregister
  rw [if_neg (by simp [discard, hd])]
  simp only [hc', hslot]
  rw [show (if (Category.publish { c with slots := c.slots.remove s.slot }).slots.isEmpty = true then
      (g.discard s.mailbox).eraseCategory s.category
    else (g.discard s.mailbox).putCategory
      (Category.publish { c with slots := c.slots.remove s.slot })) =
    (g.discard s.mailbox).replaced (c.without s.slot) by rw [← hname]; rfl, hsubs,
    if_neg hsub]

/-- What is registered once a subscriber has given up: who was before, without it. -/
theorem registers_unsubscribe (h : g.Serves live) (hd : g.dropped = false) (hs : s ∈ live)
    {c : Category} (hc : g.find? s.category = some c) (hslot : c.slots.get? s.slot = some s.mailbox)
    (s' : Subscription) : ((g.discard s.mailbox).replaced (c.without s.slot)).registers s' = true ↔
      g.registers s' = true ∧ s' ≠ s := by
  have hname := (name_of_find? hc).2
  rw [registers_iff_bind, find?_replaced, show (c.without s.slot).name = s.category from hname,
    show (c.without s.slot).slots = c.slots.remove s.slot from rfl, registers_iff_bind]
  by_cases hcat : s'.category = s.category
  · rw [if_pos hcat, SlotTable.get?_remove hslot, hcat, hc, Option.bind_some]
    by_cases hsl : s'.slot = s.slot
    · rw [if_pos hsl, hsl, hslot]
      simp only [reduceCtorEq, Option.some.injEq, false_iff, not_and, not_not]
      intro hbox
      have hs' : s' ∈ live := (h.registered hd s').mpr
        (registers_iff.mpr ⟨c, hcat ▸ hc, by rw [hsl, hslot, hbox]⟩)
      exact (h.eq_of_mailbox hs hs' hbox).symm
    · rw [if_neg hsl]
      exact ⟨fun hg => ⟨hg, fun he => hsl (congrArg _ he)⟩, fun hg => hg.1⟩
  · rw [if_neg hcat]
    exact ⟨fun hg => ⟨hg, fun he => hcat (congrArg _ he)⟩, fun hg => hg.1⟩

/-- Without its mailbox nothing is left of a subscription but its slot. -/
theorem mailboxes_discard (h : g.Serves live) (hs : s ∈ live) :
    ((g.discard s.mailbox).mailboxes.map (·.serial)).Perm
      ((live.erase s).map (·.mailbox)) := by
  have hf : (g.discard s.mailbox).mailboxes.map (·.serial) =
      (g.mailboxes.map (·.serial)).filter (· != s.mailbox) := by
    rw [List.filter_map]
    rfl
  have hp : (s.mailbox :: (live.erase s).map (·.mailbox)).Perm (live.map (·.mailbox)) :=
    ((List.perm_cons_erase hs).map Subscription.mailbox).symm
  have hn := List.nodup_cons.mp (hp.nodup_iff.mpr h.distinct)
  rw [hf]
  refine ((h.mailboxes.trans hp.symm).filter _).trans ?_
  rw [List.filter_cons_of_neg (by simp), List.filter_eq_self.mpr]
  intro n hm
  rw [bne_iff_ne]
  rintro rfl
  exact hn.1 hm

theorem unsubscribe (h : g.Serves live) (hs : s ∈ live) : ∃ registered g',
    g.unsubscribe s = .ok (registered, g') ∧ g'.Serves (live.erase s) ∧
      (∀ s' ∈ live, s' ≠ s → g'.waiting s' = g.waiting s') ∧
      g'.dropped = g.dropped ∧ g'.capacity = g.capacity ∧ g'.nextMailbox = g.nextMailbox := by
  have hdistinct : ((live.erase s).map (·.mailbox)).Nodup :=
    h.distinct.sublist (List.erase_sublist.map _)
  have hbelow : ∀ s' ∈ live.erase s, s'.mailbox < g.nextMailbox := fun s' hs' =>
    h.below s' (List.mem_of_mem_erase hs')
  have hwaiting : ∀ s' ∈ live, s' ≠ s → (g.discard s.mailbox).waiting s' = g.waiting s' :=
    fun s' hs' hne => waiting_discard g s.mailbox fun he => hne (h.eq_of_mailbox hs' hs he)
  cases hd : g.dropped with
  | true =>
    refine ⟨_, _, unsubscribe_dropped hd s, ⟨hdistinct, h.mailboxes_discard hs, hbelow, ?_, ?_,
      fun _ => h.closed hd, ?_⟩, hwaiting, hd, rfl, rfl⟩
    · rw [show (g.discard s.mailbox).categories = g.categories from rfl, h.closed hd]
      exact fun _ hc => absurd hc List.not_mem_nil
    · exact fun hd' => Bool.noConfusion (hd'.symm.trans hd)
    · exact fun hd' => Bool.noConfusion (hd'.symm.trans hd)
  | false =>
    obtain ⟨c, hc, hslot, hu⟩ := h.unsubscribe_spec hd hs
    have hreg := h.registers_unsubscribe hd hs hc hslot
    have he := replaced_eq (g.discard s.mailbox) (c.without s.slot)
    have hsound := h.sound c (name_of_find? hc).1
    refine ⟨_, _, hu, ⟨hdistinct, ?_, ?_, ?_, ?_, ?_, ?_⟩, ?_, ?_, ?_, ?_⟩
    · rw [he]
      exact h.mailboxes_discard hs
    · rw [he]
      exact hbelow
    · intro c' hm
      unfold replaced at hm
      split at hm
      · exact h.sound c' (List.mem_of_mem_filter hm)
      · rcases mem_putCategory hm with rfl | hm
        · exact ⟨hsound.1.remove hslot, rfl⟩
        · exact h.sound c' hm
    · intro _ s'
      rw [h.nodup.mem_erase_iff, h.registered hd, and_comm]
      exact (hreg s').symm
    · intro hd'
      rw [he] at hd'
      exact Bool.noConfusion (hd.symm.trans hd')
    · intro _
      rw [List.length_erase_of_mem hs, ← h.count hd]
    · intro s' hs' hne
      rw [he]
      exact hwaiting s' hs' hne
    · rw [he]
      exact hd
    · rw [he]
      rfl
    · rw [he]
      rfl

end Serves

end Gateway

end EventBroker
