import EventBroker.Proofs.Subscribers

/-! # Publishing and receiving

What publishing and receiving do to what waits for each subscription that is served. A message that
is published to a category waits for each of its subscribers that has room, and the tally counts who
took it and for whom it was lost (`Serves.waiting_publish`, `Serves.publish_eq`). What is received
comes off the front of what waits (`receive_waiting`, `receiveUpTo_waiting`).
-/
set_option autoImplicit false

namespace EventBroker

variable {α : Type}

/-- A mailbox after a message was offered to it. -/
def Mailbox.offered (capacity : Nat) (a : α) (m : Mailbox α) : Mailbox α :=
  if m.messages.size < capacity then { m with messages := m.messages.push a } else m

@[simp] theorem Mailbox.offered_serial (capacity : Nat) (a : α) (m : Mailbox α) :
    (m.offered capacity a).serial = m.serial := by
  unfold offered
  split <;> rfl

theorem Mailbox.offered_messages (capacity : Nat) (a : α) (m : Mailbox α) :
    (m.offered capacity a).messages.toList =
      m.messages.toList ++ if m.messages.toList.length < capacity then [a] else [] := by
  unfold offered
  rw [Fifo.size_eq_length]
  split <;> simp

/-- The message of a receipt, if there is one. -/
def Receipt.toList : Receipt α → List α
  | .message a => [a]
  | .empty | .disconnected => []

namespace Gateway

variable {g g' : Gateway α} {live : List Subscription} {s s' : Subscription}

/-! ## Mailboxes that are changed one by one -/

theorem find?_map_mailbox {f : Mailbox α → Mailbox α} (hf : ∀ m, (f m).serial = m.serial)
    (boxes : List (Mailbox α)) (n : Nat) :
    (boxes.map f).find? (·.serial == n) = (boxes.find? (·.serial == n)).map f := by
  rw [List.find?_map]
  simp only [Function.comp_def, hf]

theorem serial_of_find? {boxes : List (Mailbox α)} {n : Nat} {m : Mailbox α}
    (h : boxes.find? (·.serial == n) = some m) : m.serial = n := by
  simpa using List.find?_some h

theorem waiting_map {f : Mailbox α → Mailbox α} (hf : ∀ m, (f m).serial = m.serial)
    (s : Subscription) : waiting { g with mailboxes := g.mailboxes.map f } s =
      ((g.mailbox? s).map fun m => (f m).messages.toList).getD [] := by
  rw [waiting, mailbox?, find?_map_mailbox hf, Option.map_map]
  rfl

/-! ## Receiving -/

theorem setMessages_serials (g : Gateway α) (s : Subscription) (messages : Fifo α) :
    (g.setMessages s messages).mailboxes.map (·.serial) = g.mailboxes.map (·.serial) := by
  rw [setMessages, List.map_map]
  refine List.map_congr_left fun m _ => ?_
  simp only [Function.comp_apply]
  split <;> rfl

theorem waiting_setMessages {m : Mailbox α} (hm : g.mailbox? s = some m) (messages : Fifo α)
    (s' : Subscription) : (g.setMessages s messages).waiting s' =
      if s'.mailbox = s.mailbox then messages.toList else g.waiting s' := by
  have hf : ∀ m : Mailbox α,
      (if (m.serial == s.mailbox) = true then { m with messages } else m).serial = m.serial := by
    intro m
    split <;> rfl
  rw [setMessages, waiting_map hf]
  by_cases he : s'.mailbox = s.mailbox
  · have hm' : g.mailbox? s' = some m := by rw [mailbox?, he]; exact hm
    have hs : m.serial = s.mailbox := serial_of_find? hm
    simp [hm', hs, he]
  · rw [if_neg he, waiting]
    cases hm' : g.mailbox? s' with
    | none => rfl
    | some m' =>
      have hs : m'.serial = s'.mailbox := serial_of_find? hm'
      simp [hs, he]

/-- What only changes mailboxes. -/
structure SameService (g g' : Gateway α) : Prop where
  eq : g' = { g with mailboxes := g'.mailboxes }
  serials : g'.mailboxes.map (·.serial) = g.mailboxes.map (·.serial)

theorem SameService.refl (g : Gateway α) : SameService g g := ⟨rfl, rfl⟩

theorem SameService.setMessages (g : Gateway α) (s : Subscription) (messages : Fifo α) :
    SameService g (g.setMessages s messages) := ⟨rfl, setMessages_serials g s messages⟩

theorem SameService.serves (h : SameService g g') (hg : g.Serves live) : g'.Serves live := by
  rw [h.eq]
  exact hg.of_mailboxes h.serials

theorem receive_sameService (g : Gateway α) (s : Subscription) :
    SameService g (g.receive s).2 := by
  unfold receive
  split
  · exact .setMessages g s _
  · exact .refl g

theorem receiveUpTo_sameService (g : Gateway α) (s : Subscription) (max : Option Nat) :
    SameService g (g.receiveUpTo s max).2 := by
  unfold receiveUpTo
  split
  · exact .refl g
  · exact .setMessages g s _

theorem whenEmpty_toList (g : Gateway α) : g.whenEmpty.toList = [] := by
  unfold whenEmpty
  split <;> rfl

/-- A receipt is what was in front; what waits for others stays. -/
theorem receive_waiting (g : Gateway α) (s : Subscription) :
    (g.receive s).1.toList ++ (g.receive s).2.waiting s = g.waiting s ∧
      ∀ s', s'.mailbox ≠ s.mailbox → (g.receive s).2.waiting s' = g.waiting s' := by
  unfold receive
  cases hm : g.mailbox? s with
  | none =>
    exact ⟨by rw [Option.bind_none, whenEmpty_toList]; rfl, fun _ _ => rfl⟩
  | some m =>
    simp only [Option.bind_some]
    cases hp : m.messages.pop? with
    | none =>
      exact ⟨by rw [whenEmpty_toList]; rfl, fun _ _ => rfl⟩
    | some p =>
      have hw := waiting_setMessages hm p.2
      refine ⟨?_, fun s' hs' => by rw [hw, if_neg hs']⟩
      rw [hw, if_pos rfl, waiting, hm]
      exact (Fifo.toList_of_pop? hp).symm

theorem receiveUpTo_waiting (g : Gateway α) (s : Subscription) (max : Option Nat) :
    (g.receiveUpTo s max).1 ++ (g.receiveUpTo s max).2.waiting s = g.waiting s ∧
      ∀ s', s'.mailbox ≠ s.mailbox → (g.receiveUpTo s max).2.waiting s' = g.waiting s' := by
  unfold receiveUpTo
  cases hm : g.mailbox? s with
  | none => exact ⟨rfl, fun _ _ => rfl⟩
  | some m =>
    have hw := waiting_setMessages hm
      (.ofList (m.messages.toList.drop (max.getD m.messages.toList.length)))
    refine ⟨?_, fun s' hs' => by rw [hw, if_neg hs']⟩
    rw [hw, if_pos rfl, Fifo.toList_ofList, List.take_append_drop, waiting, hm]
    rfl

/-- A subscriber gets the first message that waits for it. -/
theorem receive_answer (g : Gateway α) (s : Subscription) :
    (g.receive s).1 = ((g.waiting s).head?.map .message).getD g.whenEmpty := by
  unfold receive waiting
  cases hm : g.mailbox? s with
  | none => rfl
  | some m =>
    simp only [Option.bind_some, Option.map_some, Option.getD_some]
    cases hp : m.messages.pop? with
    | none =>
      rw [(Fifo.pop?_eq_none_iff _).mp hp]
      rfl
    | some p =>
      rw [Fifo.toList_of_pop? hp]
      rfl

theorem receiveUpTo_answer (g : Gateway α) (s : Subscription) (max : Option Nat) :
    (g.receiveUpTo s max).1 = (g.waiting s).take (max.getD (g.waiting s).length) := by
  unfold receiveUpTo waiting
  cases g.mailbox? s with
  | none => exact List.take_nil.symm
  | some m => rfl

theorem receiveUpTo_left (g : Gateway α) (s : Subscription) (max : Option Nat) :
    (g.receiveUpTo s max).2.waiting s =
      (g.waiting s).drop (max.getD (g.waiting s).length) := by
  have hw := (receiveUpTo_waiting g s max).1
  rw [receiveUpTo_answer] at hw
  exact List.append_cancel_left (hw.trans (List.take_append_drop _ _).symm)

theorem receive_left (g : Gateway α) (s : Subscription) :
    (g.receive s).2.waiting s = (g.waiting s).tail := by
  have hw := (receive_waiting g s).1
  rw [receive_answer] at hw
  cases h : g.waiting s with
  | nil =>
    rw [h] at hw
    exact (List.append_eq_nil_iff.mp hw).2
  | cons a rest =>
    rw [h] at hw
    exact List.append_cancel_left hw

/-! ## Publishing -/

theorem offer_eq (capacity : Nat) (a : α) (n : Nat) {boxes : List (Mailbox α)}
    (hn : (boxes.map (·.serial)).Nodup) : offer capacity a n boxes =
      ((boxes.find? (·.serial == n)).map fun m => decide (m.messages.size < capacity),
        boxes.map fun m => if m.serial = n then m.offered capacity a else m) := by
  induction boxes with
  | nil => rfl
  | cons m rest ih =>
    rw [List.map_cons, List.nodup_cons] at hn
    unfold offer
    by_cases hm : m.serial = n
    · have hrest : (rest.map fun m => if m.serial = n then m.offered capacity a else m) = rest := by
        refine (List.map_congr_left fun m' hm' => ?_).trans (List.map_id _)
        refine if_neg fun he => hn.1 ?_
        rw [hm, ← he]
        exact List.mem_map_of_mem hm'
      have hfind : (m :: rest).find? (·.serial == n) = some m := by simp [hm]
      rw [if_pos hm, List.map_cons, hrest, if_pos hm, hfind]
      unfold Mailbox.offered
      split
      · next hfull => simp [Nat.not_lt.mpr hfull]
      · next hroom => simp [Nat.not_le.mp hroom]
    · have hfind : (m :: rest).find? (·.serial == n) = rest.find? (·.serial == n) := by simp [hm]
      rw [if_neg hm, ih hn.2, List.map_cons, if_neg hm, hfind]

/-- Whether there is a mailbox with room for one more message. -/
def hasRoom (capacity : Nat) (boxes : List (Mailbox α)) (n : Nat) : Bool :=
  (boxes.find? (·.serial == n)).any (·.messages.size < capacity)

/-- A message is dealt to some mailboxes, one after another. -/
def deal (capacity : Nat) (a : α) (dealt : Tally × List (Mailbox α)) (n : Nat) :
    Tally × List (Mailbox α) :=
  match offer capacity a n dealt.2 with
  | (some true, boxes) => (⟨dealt.1.taken + 1, dealt.1.lost⟩, boxes)
  | (some false, boxes) => (⟨dealt.1.taken, dealt.1.lost + 1⟩, boxes)
  | (none, boxes) => (dealt.1, boxes)

theorem deal_eq (capacity : Nat) (a : α) (tally : Tally) {boxes : List (Mailbox α)} {n : Nat}
    (hn : (boxes.map (·.serial)).Nodup) (hm : n ∈ boxes.map (·.serial)) :
    deal capacity a (tally, boxes) n =
      (⟨tally.taken + if hasRoom capacity boxes n then 1 else 0,
        tally.lost + if hasRoom capacity boxes n then 0 else 1⟩,
        boxes.map fun m => if m.serial = n then m.offered capacity a else m) := by
  obtain ⟨m, hm, he⟩ := List.mem_map.mp hm
  have hf : ∃ m, boxes.find? (·.serial == n) = some m := by
    rw [← Option.isSome_iff_exists, List.find?_isSome]
    exact ⟨m, hm, beq_iff_eq.mpr he⟩
  obtain ⟨m, hf⟩ := hf
  unfold deal hasRoom
  rw [offer_eq capacity a n hn, hf]
  by_cases hroom : m.messages.size < capacity <;> simp [hroom]

/-- Dealing a message to several mailboxes: each gets it once, and has room or not as before. -/
theorem foldl_deal (capacity : Nat) (a : α) {ns : List Nat} (hns : ns.Nodup) (tally : Tally)
    {boxes : List (Mailbox α)} (hn : (boxes.map (·.serial)).Nodup)
    (hm : ∀ n ∈ ns, n ∈ boxes.map (·.serial)) :
    ns.foldl (deal capacity a) (tally, boxes) =
      (⟨tally.taken + ns.countP (hasRoom capacity boxes),
        tally.lost + ns.countP fun n => !hasRoom capacity boxes n⟩,
        boxes.map fun m => if m.serial ∈ ns then m.offered capacity a else m) := by
  induction ns generalizing tally boxes with
  | nil => simp
  | cons n rest ih =>
    rw [List.nodup_cons] at hns
    rw [List.forall_mem_cons] at hm
    have hserial : ∀ m : Mailbox α,
        (if m.serial = n then m.offered capacity a else m).serial = m.serial := by
      intro m
      split <;> simp
    have hmap : (boxes.map fun m => if m.serial = n then m.offered capacity a else m).map
        (·.serial) = boxes.map (·.serial) := by
      rw [List.map_map]
      exact List.map_congr_left fun m _ => hserial m
    -- those that are still to come are as they were
    have hroom : ∀ n' ∈ rest, hasRoom capacity
        (boxes.map fun m => if m.serial = n then m.offered capacity a else m) n' =
          hasRoom capacity boxes n' := by
      intro n' hn'
      unfold hasRoom
      rw [find?_map_mailbox hserial]
      cases hf : boxes.find? (·.serial == n') with
      | none => rfl
      | some m =>
        have hne : m.serial ≠ n := fun he => hns.1 (he ▸ serial_of_find? hf ▸ hn')
        simp [hne]
    rw [List.foldl_cons, deal_eq capacity a tally hn hm.1,
      ih hns.2 _ (hmap ▸ hn) fun n' hn' => hmap ▸ hm.2 n' hn', List.map_map, List.countP_cons,
      List.countP_cons, List.countP_congr fun n' hn' => by rw [hroom n' hn'],
      List.countP_congr (p := fun n' => !hasRoom capacity (boxes.map fun m =>
        if m.serial = n then m.offered capacity a else m) n')
        fun n' hn' => by rw [hroom n' hn']]
    refine Prod.ext ?_ (List.map_congr_left fun m _ => ?_)
    · cases hasRoom capacity boxes n <;> simp <;> omega
    · simp only [Function.comp_apply, hserial, List.mem_cons]
      by_cases hs : m.serial = n
      · simp [hs, hns.1]
      · simp [hs]

theorem publish_none {category : String} (h : g.find? category = none) (a : α) :
    g.publish category a = (⟨0, 0⟩, g) := by
  unfold publish
  rw [h]

theorem publish_some {category : String} {c : Category} (h : g.find? category = some c) (a : α) :
    g.publish category a =
      ((c.published.foldl (deal g.capacity a) (⟨0, 0⟩, g.mailboxes)).1,
        { g with mailboxes := (c.published.foldl (deal g.capacity a) (⟨0, 0⟩, g.mailboxes)).2 }) := by
  unfold publish
  rw [h]
  rfl

/-- The subscribers of a category. -/
def membersOf (live : List Subscription) (category : String) : List Subscription :=
  live.filter (·.category == category)

namespace Serves

/-- What a category has published are the mailboxes of its subscribers. -/
theorem published_perm (h : g.Serves live) (hd : g.dropped = false) {category : String}
    {c : Category} (hc : g.find? category = some c) :
    c.published.Perm ((membersOf live category).map (·.mailbox)) := by
  obtain ⟨hmem, hname⟩ := name_of_find? hc
  have hlive : ∀ i n, c.slots.get? i = some n ↔ (⟨category, i, n⟩ : Subscription) ∈ live := by
    intro i n
    rw [h.registered hd, registers_iff, hc]
    simp
  rw [(h.sound c hmem).2, List.perm_ext_iff_of_nodup]
  · intro n
    rw [SlotTable.mem_values_iff, List.mem_map]
    constructor
    · rintro ⟨i, hi⟩
      exact ⟨_, List.mem_filter.mpr ⟨(hlive i n).mp hi, beq_self_eq_true _⟩, rfl⟩
    · rintro ⟨s, hs, rfl⟩
      obtain ⟨hs, hcat⟩ := List.mem_filter.mp hs
      refine ⟨s.slot, (hlive s.slot s.mailbox).mpr ?_⟩
      rw [← beq_iff_eq.mp hcat]
      exact hs
  · refine SlotTable.nodup_values fun i j n hi hj => ?_
    exact congrArg Subscription.slot
      (h.eq_of_mailbox ((hlive i n).mp hi) ((hlive j n).mp hj) rfl)
  · exact h.distinct.sublist (List.filter_sublist.map _)

theorem membersOf_eq_nil (h : g.Serves live) (hd : g.dropped = false) {category : String}
    (hc : g.find? category = none) : membersOf live category = [] := by
  rw [membersOf, List.filter_eq_nil_iff]
  intro s hs hcat
  obtain ⟨c, hc', -⟩ := registers_iff.mp ((h.registered hd s).mp hs)
  rw [beq_iff_eq.mp hcat, hc] at hc'
  cases hc'

theorem hasRoom_iff (h : g.Serves live) (hs : s ∈ live) :
    hasRoom g.capacity g.mailboxes s.mailbox = decide ((g.waiting s).length < g.capacity) := by
  obtain ⟨m, hm⟩ := h.exists_mailbox hs
  have hf : g.mailboxes.find? (·.serial == s.mailbox) = some m := hm
  rw [hasRoom, hf, waiting, hm, Option.any_some, Fifo.size_eq_length]
  rfl

/-- The mailboxes of a category's subscribers after a message was published to it. -/
theorem publish_eq (h : g.Serves live) (hd : g.dropped = false) (category : String) (a : α) :
    g.publish category a =
      (⟨live.countP fun s => s.category == category && decide ((g.waiting s).length < g.capacity),
        live.countP fun s => s.category == category && !decide ((g.waiting s).length < g.capacity)⟩,
        { g with mailboxes := g.mailboxes.map fun m =>
          if m.serial ∈ (membersOf live category).map (·.mailbox) then m.offered g.capacity a
          else m }) := by
  cases hc : g.find? category with
  | none =>
    have hnil := h.membersOf_eq_nil hd hc
    have hzero : ∀ p : Subscription → Bool,
        live.countP (fun s => s.category == category && p s) = 0 := by
      intro p
      rw [List.countP_eq_zero]
      intro s hs hp
      have hmem : s ∈ membersOf live category :=
        List.mem_filter.mpr ⟨hs, (Bool.and_eq_true_iff.mp hp).1⟩
      rw [hnil] at hmem
      cases hmem
    rw [publish_none hc, hzero, hzero, hnil]
    simp
  | some c =>
    have hp := h.published_perm hd hc
    have hnodup : c.published.Nodup :=
      hp.nodup_iff.mpr (h.distinct.sublist (List.filter_sublist.map _))
    have hboxes : ∀ n ∈ c.published, n ∈ g.mailboxes.map (·.serial) := by
      intro n hn
      obtain ⟨s, hs, rfl⟩ := List.mem_map.mp (hp.mem_iff.mp hn)
      exact h.mailboxes.mem_iff.mpr (List.mem_map_of_mem (List.mem_filter.mp hs).1)
    have hcount : ∀ (p : Nat → Bool) (p' : Subscription → Bool),
        (∀ s ∈ live, p s.mailbox = p' s) →
          c.published.countP p = live.countP fun s => s.category == category && p' s := by
      intro p p' hpp
      rw [hp.countP_eq, List.countP_map, membersOf, List.countP_filter]
      apply List.countP_congr
      intro s hs
      simp only [Function.comp_apply, hpp s hs, Bool.and_eq_true]
      exact and_comm
    rw [publish_some hc, foldl_deal g.capacity a hnodup _ h.nodup_mailboxes hboxes,
      hcount _ _ fun s hs => h.hasRoom_iff hs,
      hcount (fun n => !hasRoom g.capacity g.mailboxes n) _
        fun s hs => congrArg (!·) (h.hasRoom_iff hs)]
    simp only [Nat.zero_add, hp.mem_iff]

/-- A message waits for each subscriber of its category that has room, and for nobody else. -/
theorem waiting_publish (h : g.Serves live) (hd : g.dropped = false) (category : String) (a : α)
    (hs : s ∈ live) : (g.publish category a).2.waiting s = g.waiting s ++
      if s.category = category ∧ (g.waiting s).length < g.capacity then [a] else [] := by
  obtain ⟨m, hm⟩ := h.exists_mailbox hs
  have hserial : m.serial = s.mailbox := serial_of_find? hm
  have hmem : m.serial ∈ (membersOf live category).map (·.mailbox) ↔ s.category = category := by
    rw [hserial, List.mem_map]
    constructor
    · rintro ⟨s', hs', he⟩
      obtain ⟨hs', hcat⟩ := List.mem_filter.mp hs'
      rw [← h.eq_of_mailbox hs' hs he]
      exact beq_iff_eq.mp hcat
    · exact fun hcat => ⟨s, List.mem_filter.mpr ⟨hs, beq_iff_eq.mpr hcat⟩, rfl⟩
  rw [h.publish_eq hd, waiting_map (by intro m; split <;> simp), hm, Option.map_some,
    Option.getD_some]
  have hw : g.waiting s = m.messages.toList := by rw [waiting, hm]; rfl
  by_cases hcat : s.category = category
  · rw [if_pos (hmem.mpr hcat), Mailbox.offered_messages, hw]
    simp [hcat]
  · rw [if_neg (mt hmem.mp hcat), hw]
    simp [hcat]

theorem publish_sameService (h : g.Serves live) (hd : g.dropped = false) (category : String)
    (a : α) : SameService g (g.publish category a).2 := by
  rw [h.publish_eq hd]
  refine ⟨rfl, ?_⟩
  rw [List.map_map]
  refine List.map_congr_left fun m _ => ?_
  simp only [Function.comp_apply]
  split <;> simp

end Serves

end Gateway

end EventBroker
