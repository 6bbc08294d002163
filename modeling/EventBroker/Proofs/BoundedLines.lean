import EventBroker.Proofs.Publishing
import Mathlib.Data.List.ReduceOption

/-! # The gateway as bounded lines

A plain model of the gateway: each subscription is a line that holds up to a fixed number of
messages, and a subscription that was given up is no line any more. There are no slots, no mailboxes
and no categories beyond the name that each line has. `bounded_lines` says that nobody who calls the
gateway can tell it from the plain model, however calls follow one another.
-/
set_option autoImplicit false

namespace EventBroker.Gateway

variable {α : Type}

/-- What can be done to a gateway and to the subscriptions it has handed out, which are numbered in
the order in which they were made. -/
inductive Call (α : Type) where
  | subscribe (category : String)
  | publish (category : String) (a : α)
  | receive (k : Nat)
  | unsubscribe (k : Nat)
  | count
  | drop

inductive Reply (α : Type) where
  | subscribed (k : Nat)
  | taken (n : Nat)
  | received (receipt : Receipt α)
  | count (n : Nat)
  | dropped
  /-- What is called upon has been dropped or was never there. -/
  | gone

/-! ## The plain model -/

structure Line (α : Type) where
  category : String
  waiting : List α

structure Lines (α : Type) where
  /-- One for each subscription that was made; none for those that were given up. -/
  lines : List (Option (Line α))
  dropped : Bool

/-- Whether a line takes a message: it is of the right category and has room. -/
def Line.takes (capacity : Nat) (category : String) (l : Line α) : Bool :=
  l.category == category && decide (l.waiting.length < capacity)

def Line.offered (capacity : Nat) (category : String) (a : α) (l : Line α) : Line α :=
  if l.takes capacity category then { l with waiting := l.waiting ++ [a] } else l

namespace Lines

def empty : Lines α := ⟨[], false⟩

def live (m : Lines α) : List (Line α) := m.lines.reduceOption

def call (capacity : Nat) (m : Lines α) : Call α → Reply α × Lines α
  | .subscribe category =>
    if m.dropped then (.gone, m)
    else (.subscribed m.lines.length, { m with lines := m.lines ++ [some ⟨category, []⟩] })
  | .publish category a =>
    if m.dropped then (.gone, m)
    else (.taken (m.live.countP (·.takes capacity category)),
      { m with lines := m.lines.map (Option.map (·.offered capacity category a)) })
  | .receive k =>
    match m.lines[k]?.join with
    | none => (.gone, m)
    | some ⟨_, []⟩ => (.received (if m.dropped then .disconnected else .empty), m)
    | some ⟨category, a :: rest⟩ =>
      (.received (.message a), { m with lines := m.lines.set k (some ⟨category, rest⟩) })
  | .unsubscribe k =>
    match m.lines[k]?.join with
    | none => (.gone, m)
    | some _ => (.dropped, { m with lines := m.lines.set k none })
  | .count => if m.dropped then (.gone, m) else (.count m.live.length, m)
  | .drop => (.dropped, { m with dropped := true })

def run (capacity : Nat) (m : Lines α) : List (Call α) → List (Reply α) × Lines α
  | [] => ([], m)
  | x :: rest =>
    let (reply, m) := m.call capacity x
    let (replies, m) := m.run capacity rest
    (reply :: replies, m)

end Lines

/-! ## The gateway under calls -/

/-- A gateway with the subscriptions it has handed out; one that was given up is no longer there. -/
structure Desk (α : Type) where
  gateway : Gateway α
  handles : List (Option Subscription)

namespace Desk

def new (capacity : Nat) : Desk α := ⟨.new capacity, []⟩

def call (d : Desk α) : Call α → Except Crash (Reply α × Desk α)
  | .subscribe category =>
    if d.gateway.dropped then .ok (.gone, d)
    else (d.gateway.subscribe category).map fun (s, gateway) =>
      (.subscribed d.handles.length, ⟨gateway, d.handles ++ [some s]⟩)
  | .publish category a =>
    if d.gateway.dropped then .ok (.gone, d)
    else
      let (tally, gateway) := d.gateway.publish category a
      .ok (.taken tally.taken, { d with gateway })
  | .receive k =>
    match d.handles[k]?.join with
    | none => .ok (.gone, d)
    | some s =>
      let (receipt, gateway) := d.gateway.receive s
      .ok (.received receipt, { d with gateway })
  | .unsubscribe k =>
    match d.handles[k]?.join with
    | none => .ok (.gone, d)
    | some s => (d.gateway.unsubscribe s).map fun (_, gateway) =>
      (.dropped, ⟨gateway, d.handles.set k none⟩)
  | .count => .ok (if d.gateway.dropped then .gone else .count d.gateway.subscribers, d)
  | .drop => .ok (.dropped, { d with gateway := d.gateway.drop })

def run (d : Desk α) : List (Call α) → Except Crash (List (Reply α) × Desk α)
  | [] => .ok ([], d)
  | x :: rest => do
    let (reply, d) ← d.call x
    let (replies, d) ← d.run rest
    return (reply :: replies, d)

/-- The line that a subscription is. -/
def line (g : Gateway α) (s : Subscription) : Line α := ⟨s.category, g.waiting s⟩

def lines (d : Desk α) : Lines α := ⟨d.handles.map (Option.map (line d.gateway)), d.gateway.dropped⟩

end Desk

/-! ## Entries of categories -/

/-- Each category has one entry, and somebody in it. -/
structure Tidy (g : Gateway α) : Prop where
  names : (g.categories.map (·.name)).Nodup
  inhabited : ∀ c ∈ g.categories, c.slots.isEmpty = false

namespace Tidy

variable {g g' : Gateway α} {live : List Subscription} {s : Subscription}

theorem new (capacity : Nat) : (Gateway.new capacity : Gateway α).Tidy :=
  ⟨List.nodup_nil, List.forall_mem_nil _⟩

theorem congr (h : g.Tidy) (hc : g'.categories = g.categories) : g'.Tidy :=
  ⟨hc ▸ h.names, hc ▸ h.inhabited⟩

theorem putCategory (h : g.Tidy) {c : Category} (hc : c.slots.isEmpty = false) :
    (g.putCategory c).Tidy where
  names := by
    have hmap : (g.categories.map fun old => if (old.name == c.name) = true then c else old).map
        (·.name) = g.categories.map (·.name) := by
      rw [List.map_map]
      refine List.map_congr_left fun old _ => ?_
      simp only [Function.comp_apply]
      split
      · next he => exact (beq_iff_eq.mp he).symm
      · rfl
    unfold Gateway.putCategory
    split
    · rw [hmap]
      exact h.names
    · next hnone =>
      rw [List.map_append, List.map_cons, List.map_nil, ← List.concat_eq_append]
      refine h.names.concat fun hm => hnone ?_
      obtain ⟨old, hold, he⟩ := List.mem_map.mp hm
      exact List.any_eq_true.mpr ⟨old, hold, beq_iff_eq.mpr he⟩
  inhabited c' hm := by
    rcases mem_putCategory hm with rfl | hm
    · exact hc
    · exact h.inhabited c' hm

theorem eraseCategory (h : g.Tidy) (name : String) : (g.eraseCategory name).Tidy :=
  ⟨h.names.sublist (List.filter_sublist.map _),
    fun c hc => h.inhabited c (List.mem_of_mem_filter hc)⟩

theorem replaced (h : g.Tidy) (c : Category) : (g.replaced c).Tidy := by
  unfold Gateway.replaced
  split
  · exact h.eraseCategory c.name
  · next he => exact h.putCategory (by simpa using he)

theorem subscribe (h : g.Tidy) (hg : g.Serves live) {category : String}
    (hs : g.subscribe category = .ok (s, g')) : g'.Tidy := by
  obtain ⟨-, rfl⟩ := subscribe_spec hs
  have hj : (g.joined category).slots.isEmpty = false := by
    have hslots := hg.sound_getD category
    rw [Bool.eq_false_iff]
    intro he
    have hnone := SlotTable.isEmpty_iff.mp he
      (((g.find? category).getD ⟨category, .empty, []⟩).slots.insert g.nextMailbox).1
    rw [show (g.joined category).slots =
      (((g.find? category).getD ⟨category, .empty, []⟩).slots.insert g.nextMailbox).2 from rfl,
      hslots.get?_insert, if_pos rfl] at hnone
    cases hnone
  exact (h.putCategory hj).congr rfl

theorem unsubscribe (h : g.Tidy) (hg : g.Serves live) (hs : s ∈ live) {registered : Bool}
    (hu : g.unsubscribe s = .ok (registered, g')) : g'.Tidy := by
  cases hd : g.dropped with
  | true =>
    rw [Serves.unsubscribe_dropped hd] at hu
    cases hu
    exact h.congr rfl
  | false =>
    obtain ⟨c, -, -, hu'⟩ := hg.unsubscribe_spec hd hs
    rw [hu'] at hu
    cases hu
    have ht : (g.discard s.mailbox).Tidy := h.congr rfl
    exact (ht.replaced (c.without s.slot)).congr rfl

/-- There is an entry for a category just if somebody is subscribed to it. -/
theorem exists_entry_iff (h : g.Tidy) (hg : g.Serves live) (hd : g.dropped = false)
    (category : String) :
    (∃ c ∈ g.categories, c.name = category) ↔ ∃ s ∈ live, s.category = category := by
  constructor
  · rintro ⟨c, hc, rfl⟩
    obtain ⟨c', hf⟩ : ∃ c', g.find? c.name = some c' := by
      rw [← Option.isSome_iff_exists, Gateway.find?, List.find?_isSome]
      exact ⟨c, hc, beq_self_eq_true _⟩
    have hne := h.inhabited c' (name_of_find? hf).1
    rw [Bool.eq_false_iff, ne_eq, SlotTable.isEmpty_iff, not_forall] at hne
    obtain ⟨slot, hslot⟩ := hne
    obtain ⟨mailbox, hm⟩ := Option.ne_none_iff_exists'.mp hslot
    exact ⟨⟨c.name, slot, mailbox⟩,
      (hg.registered hd _).mpr (registers_iff.mpr ⟨c', hf, hm⟩), rfl⟩
  · rintro ⟨s, hs, rfl⟩
    obtain ⟨c, hf, -⟩ := registers_iff.mp ((hg.registered hd s).mp hs)
    exact ⟨c, name_of_find? hf⟩

end Tidy

/-! ## Calls on both sides -/

namespace Desk

variable {capacity : Nat} {d : Desk α} {g : Gateway α} {s : Subscription}

/-- What calls keep up. -/
structure Sound (capacity : Nat) (d : Desk α) : Prop where
  serves : d.gateway.Serves d.handles.reduceOption
  tidy : d.gateway.Tidy
  capacity : d.gateway.capacity = capacity

theorem Sound.new (capacity : Nat) : (Desk.new capacity : Desk α).Sound capacity :=
  ⟨.new capacity, .new capacity, rfl⟩

theorem live_lines (d : Desk α) : d.lines.live = d.handles.reduceOption.map (line d.gateway) :=
  List.reduceOption_map

theorem getElem?_lines (d : Desk α) (k : Nat) :
    d.lines.lines[k]?.join = d.handles[k]?.join.map (line d.gateway) := by
  simp only [lines, List.getElem?_map]
  cases d.handles[k]? <;> rfl

/-- A subscription that is left has one place among the handles. -/
theorem Sound.split (h : d.Sound capacity) {k : Nat} (hk : d.handles[k]?.join = some s) :
    ∃ before after, d.handles = before ++ some s :: after ∧ before.length = k ∧
      s ∉ before.reduceOption ∧ s ∉ after.reduceOption := by
  obtain ⟨hlt, he⟩ := List.getElem?_eq_some_iff.mp (Option.join_eq_some_iff.mp hk)
  have hsplit : d.handles = d.handles.take k ++ some s :: d.handles.drop (k + 1) := by
    rw [← he, List.getElem_cons_drop, List.take_append_drop]
  have hn := h.serves.nodup
  rw [hsplit, List.reduceOption_append, List.reduceOption_cons_of_some, List.nodup_append,
    List.nodup_cons] at hn
  exact ⟨_, _, hsplit, List.length_take_of_le (Nat.le_of_lt hlt),
    fun hm => hn.2.2 s hm s List.mem_cons_self rfl, hn.2.1.1⟩

theorem mem_of_handle {k : Nat} (hk : d.handles[k]?.join = some s) :
    s ∈ d.handles.reduceOption :=
  List.reduceOption_mem_iff.mpr (List.mem_of_getElem? (Option.join_eq_some_iff.mp hk))

theorem set_same {β : Type} {l : List β} {k : Nat} {x : β} (h : l[k]? = some x) :
    l.set k x = l := by
  obtain ⟨hlt, rfl⟩ := List.getElem?_eq_some_iff.mp h
  exact List.set_getElem_self hlt

/-- What is done to one subscription changes its line only. -/
theorem Sound.lines_set (h : d.Sound capacity) {k : Nat} (hk : d.handles[k]?.join = some s)
    (hw : ∀ s' ∈ d.handles.reduceOption, s' ≠ s → g.waiting s' = d.gateway.waiting s')
    (handle : Option Subscription) :
    (d.handles.set k handle).map (Option.map (line g)) =
      d.lines.lines.set k (handle.map (line g)) := by
  obtain ⟨before, after, hsplit, hlen, hb, ha⟩ := h.split hk
  have hothers : ∀ handles : List (Option Subscription),
      (∀ s' ∈ handles.reduceOption, s' ∈ d.handles.reduceOption) → s ∉ handles.reduceOption →
      handles.map (Option.map (line g)) = handles.map (Option.map (line d.gateway)) := by
    intro handles hsub hs
    refine List.map_congr_left fun handle' hm => Option.map_congr fun s' hs' => ?_
    have hm' : s' ∈ handles.reduceOption :=
      List.reduceOption_mem_iff.mpr (Option.mem_def.mp hs' ▸ hm)
    have hne : s' ≠ s := fun he => hs (he ▸ hm')
    rw [line, line, hw s' (hsub s' hm') hne]
  have hb' := hothers before (fun s' hs' => by
    rw [hsplit, List.reduceOption_append]
    exact List.mem_append_left _ hs') hb
  have ha' := hothers after (fun s' hs' => by
    rw [hsplit, List.reduceOption_append, List.reduceOption_cons_of_some]
    exact List.mem_append_right _ (List.mem_cons_of_mem _ hs')) ha
  subst hlen
  simp only [lines, hsplit, List.map_append, List.map_cons, Option.map_some]
  rw [List.set_append_right _ _ (Nat.le_refl _), List.map_append, hb', Nat.sub_self,
    List.set_append_right _ _ (by simp), List.length_map, Nat.sub_self, List.set_cons_zero,
    List.set_cons_zero, List.map_cons, ha']

/-- A call is answered as the plain model answers it, and leaves behind what the model leaves. -/
def Follows (capacity : Nat) (d : Desk α) (x : Call α) : Prop :=
  ∃ d', d.call x = .ok ((d.lines.call capacity x).1, d') ∧
    d'.lines = (d.lines.call capacity x).2 ∧ d'.Sound capacity

theorem Sound.subscribe (h : d.Sound capacity) (hpos : 1 ≤ capacity)
    (hle : capacity ≤ maxCapacity) (category : String) :
    Follows capacity d (.subscribe category) := by
  cases hd : d.gateway.dropped with
  | true => exact ⟨d, by simp [call, Lines.call, lines, hd], by simp [Lines.call, lines, hd], h⟩
  | false =>
    obtain ⟨s, g, hs⟩ : ∃ s g, d.gateway.subscribe category = .ok (s, g) := by
      unfold Gateway.subscribe
      rw [if_neg (by rw [h.capacity]; omega)]
      exact ⟨_, _, rfl⟩
    have hw := h.serves.waiting_subscribe hs
    have hg : g.dropped = d.gateway.dropped ∧ g.capacity = d.gateway.capacity := by
      rw [(subscribe_spec hs).2]
      exact ⟨putCategory_dropped _ _, putCategory_capacity _ _⟩
    have hcat : s.category = category := by rw [(subscribe_spec hs).1]
    have hold : d.handles.map (Option.map (line g)) =
        d.handles.map (Option.map (line d.gateway)) := by
      refine List.map_congr_left fun handle hm => Option.map_congr fun s' hs' => ?_
      rw [line, line, hw.2 s' (List.reduceOption_mem_iff.mpr (Option.mem_def.mp hs' ▸ hm))]
    refine ⟨⟨g, d.handles ++ [some s]⟩, ?_, ?_, ?_, ?_, ?_⟩
    · simp [call, Lines.call, lines, hd, hs, Except.map]
    · simp [Lines.call, lines, hd, hg.1, hold, line, hw.1, hcat]
    · rw [List.reduceOption_append, List.reduceOption_singleton]
      exact (h.serves.subscribe hd hs).perm (List.perm_append_singleton s _).symm
    · exact h.tidy.subscribe h.serves hs
    · exact hg.2.trans h.capacity

theorem Sound.publish (h : d.Sound capacity) (category : String) (a : α) :
    Follows capacity d (.publish category a) := by
  cases hd : d.gateway.dropped with
  | true => exact ⟨d, by simp [call, Lines.call, lines, hd], by simp [Lines.call, lines, hd], h⟩
  | false =>
    have hsame := h.serves.publish_sameService hd category a
    have hg : (d.gateway.publish category a).2.dropped = d.gateway.dropped := by rw [hsame.eq]
    have htaken : (d.gateway.publish category a).1.taken =
        d.lines.live.countP (·.takes capacity category) := by
      rw [live_lines, List.countP_map, h.serves.publish_eq hd, h.capacity]
      rfl
    have hlines : d.handles.map (Option.map (line (d.gateway.publish category a).2)) =
        d.lines.lines.map (Option.map (·.offered capacity category a)) := by
      rw [lines, List.map_map]
      refine List.map_congr_left fun handle hm => ?_
      rw [Function.comp_apply, Option.map_map]
      refine Option.map_congr fun s hs => ?_
      have hm' : s ∈ d.handles.reduceOption :=
        List.reduceOption_mem_iff.mpr (Option.mem_def.mp hs ▸ hm)
      rw [line, h.serves.waiting_publish hd category a hm', h.capacity, Function.comp_apply]
      unfold Line.offered Line.takes line
      by_cases hc : s.category = category <;>
        by_cases hl : (d.gateway.waiting s).length < capacity <;> simp [hc, hl]
    refine ⟨{ d with gateway := (d.gateway.publish category a).2 }, ?_, ?_,
      hsame.serves h.serves, h.tidy.congr (by rw [hsame.eq]), ?_⟩
    · simp [call, Lines.call, hd, htaken, show d.lines.dropped = false from hd]
    · simp only [Lines.call, show d.lines.dropped = false from hd, Bool.false_eq_true, if_false]
      rw [lines, hlines, hg, hd]
    · rw [← h.capacity, hsame.eq]

theorem Sound.receive (h : d.Sound capacity) (k : Nat) : Follows capacity d (.receive k) := by
  have hline := getElem?_lines d k
  unfold Follows
  simp only [call, Lines.call]
  cases hk : d.handles[k]?.join with
  | none =>
    rw [hk] at hline
    simp only [hline, Option.map_none]
    exact ⟨d, rfl, rfl, h⟩
  | some s =>
    rw [hk] at hline
    have hsame := receive_sameService d.gateway s
    have hd : (d.gateway.receive s).2.dropped = d.gateway.dropped := by rw [hsame.eq]
    have hset := h.lines_set (g := (d.gateway.receive s).2) hk
      (fun s' hs' hne => (receive_waiting d.gateway s).2 s'
        fun he => hne (h.serves.eq_of_mailbox hs' (mem_of_handle hk) he)) (some s)
    rw [set_same (Option.join_eq_some_iff.mp hk)] at hset
    have hsound : Sound capacity { d with gateway := (d.gateway.receive s).2 } :=
      ⟨hsame.serves h.serves, h.tidy.congr (by rw [hsame.eq]), by rw [← h.capacity, hsame.eq]⟩
    refine ⟨{ d with gateway := (d.gateway.receive s).2 }, ?_, ?_, hsound⟩
    · simp only [hline, Option.map_some, line, receive_answer]
      cases d.gateway.waiting s <;> rfl
    · rw [lines, hset, hd]
      simp only [hline, Option.map_some, line, receive_left]
      cases hw : d.gateway.waiting s with
      | nil =>
        rw [Option.map_some, line, hw] at hline
        rw [List.tail_nil, set_same (Option.join_eq_some_iff.mp hline)]
        rfl
      | cons a rest => rfl

theorem Sound.unsubscribe (h : d.Sound capacity) (k : Nat) :
    Follows capacity d (.unsubscribe k) := by
  have hline := getElem?_lines d k
  unfold Follows
  simp only [call, Lines.call]
  cases hk : d.handles[k]?.join with
  | none =>
    rw [hk] at hline
    simp only [hline, Option.map_none]
    exact ⟨d, rfl, rfl, h⟩
  | some s =>
    rw [hk] at hline
    obtain ⟨registered, g, hu, hserves, hw, hd, hc, -⟩ := h.serves.unsubscribe (mem_of_handle hk)
    have hset := h.lines_set hk hw none
    obtain ⟨before, after, hsplit, hlen, -, -⟩ := h.split hk
    have hperm : (d.handles.reduceOption.erase s).Perm (d.handles.set k none).reduceOption := by
      subst hlen
      rw [hsplit, List.set_append_right _ _ (Nat.le_refl _), Nat.sub_self, List.set_cons_zero,
        List.reduceOption_append, List.reduceOption_append, List.reduceOption_cons_of_some,
        List.reduceOption_cons_of_none]
      simpa using (@List.perm_middle _ s before.reduceOption after.reduceOption).erase s
    refine ⟨⟨g, d.handles.set k none⟩, ?_, ?_, hserves.perm hperm,
      h.tidy.unsubscribe h.serves (mem_of_handle hk) hu, hc.trans h.capacity⟩
    · simp only [hline, hu]
      rfl
    · simp only [hline, Option.map_some]
      rw [lines, hset, hd]
      rfl

theorem Sound.count (h : d.Sound capacity) : Follows capacity d .count := by
  refine ⟨d, ?_, ?_, h⟩
  · simp only [call, Lines.call, live_lines, List.length_map]
    cases hd : d.gateway.dropped with
    | true => simp [lines, hd]
    | false => simp [lines, hd, h.serves.count hd]
  · simp only [Lines.call]
    split <;> rfl

theorem Sound.drop (h : d.Sound capacity) : Follows capacity d .drop :=
  ⟨{ d with gateway := d.gateway.drop }, rfl, rfl, h.serves.drop,
    ⟨List.nodup_nil, List.forall_mem_nil _⟩, h.capacity⟩

/-- One call. -/
theorem Sound.follows (h : d.Sound capacity) (hpos : 1 ≤ capacity) (hle : capacity ≤ maxCapacity)
    (x : Call α) : Follows capacity d x := by
  cases x with
  | subscribe category => exact h.subscribe hpos hle category
  | publish category a => exact h.publish category a
  | receive k => exact h.receive k
  | unsubscribe k => exact h.unsubscribe k
  | count => exact h.count
  | drop => exact h.drop

/-- Any number of calls. -/
theorem Sound.run (h : d.Sound capacity) (hpos : 1 ≤ capacity) (hle : capacity ≤ maxCapacity)
    (calls : List (Call α)) : ∃ d', d.run calls = .ok ((d.lines.run capacity calls).1, d') ∧
      d'.lines = (d.lines.run capacity calls).2 ∧ d'.Sound capacity := by
  induction calls generalizing d with
  | nil => exact ⟨d, rfl, rfl, h⟩
  | cons x rest ih =>
    obtain ⟨d₁, hx, hl, h₁⟩ := h.follows hpos hle x
    obtain ⟨d₂, hr, hl₂, h₂⟩ := ih h₁
    rw [hl] at hr hl₂
    refine ⟨d₂, ?_, hl₂, h₂⟩
    rw [Desk.run, hx]
    simp only [Bind.bind, Except.bind, hr]
    rfl

end Desk

/-! ## The result -/

/-- Once everything is dropped, a line is read to its end. -/
theorem Lines.run_receives (capacity : Nat) {m : Lines α} (hd : m.dropped = true) {k : Nat}
    {category : String} {waiting : List α} (hk : m.lines[k]?.join = some ⟨category, waiting⟩) :
    (m.run capacity (List.replicate (waiting.length + 1) (.receive k))).1 =
      waiting.map (fun a => .received (.message a)) ++ [.received .disconnected] := by
  induction waiting generalizing m with
  | nil => simp [Lines.run, Lines.call, hk, hd]
  | cons a rest ih =>
    have hlt : k < m.lines.length :=
      (List.getElem?_eq_some_iff.mp (Option.join_eq_some_iff.mp hk)).1
    have hnext := ih (m := { m with lines := m.lines.set k (some ⟨category, rest⟩) }) hd
      (by simp [hlt])
    have hcall : m.call capacity (.receive k) = (.received (.message a),
        { m with lines := m.lines.set k (some ⟨category, rest⟩) }) := by
      simp only [Lines.call, hk]
    rw [List.length_cons, List.replicate_succ, Lines.run, hcall, List.map_cons, List.cons_append,
      ← hnext]

/-- A gateway answers every sequence of calls as one line for each subscription would: a message
goes to the lines of its category that have room, giving up takes away one's own line, and the count
is that of the lines left. A category has an entry as long as it has a line. Once the gateway is
dropped, each line is read to its end and then disconnected, and giving it up touches nothing else.
-/
theorem bounded_lines {capacity : Nat} (hpos : 1 ≤ capacity) (hle : capacity ≤ maxCapacity)
    (calls : List (Call α)) :
    ∃ d, (Desk.new capacity).run calls = .ok ((Lines.empty.run capacity calls).1, d) ∧
      d.lines = (Lines.empty.run capacity calls).2 ∧
      (d.gateway.dropped = false → d.gateway.subscribers = d.lines.live.length ∧
        (d.gateway.categories.map (·.name)).Nodup ∧
        ∀ category, (∃ c ∈ d.gateway.categories, c.name = category) ↔
          ∃ l ∈ d.lines.live, l.category = category) ∧
      (d.gateway.dropped = true → ∀ k l, d.lines.lines[k]? = some (some l) →
        (∃ d', d.run (List.replicate (l.waiting.length + 1) (.receive k)) =
          .ok (l.waiting.map (fun a => .received (.message a)) ++ [.received .disconnected], d')) ∧
        ∃ d', d.call (.unsubscribe k) = .ok (.dropped, d') ∧
          d'.lines = { d.lines with lines := d.lines.lines.set k none } ∧
          d'.gateway.categories = d.gateway.categories ∧
          d'.gateway.subscribers = d.gateway.subscribers) := by
  obtain ⟨d, hr, hl, h⟩ := (Desk.Sound.new (α := α) capacity).run hpos hle calls
  refine ⟨d, hr, hl, fun hd => ⟨?_, h.tidy.names, fun category => ?_⟩, fun hd k l hk => ⟨?_, ?_⟩⟩
  · rw [h.serves.count hd, Desk.live_lines, List.length_map]
  · rw [h.tidy.exists_entry_iff h.serves hd, Desk.live_lines]
    simp [Desk.line]
  · obtain ⟨d', hr', -, -⟩ := h.run hpos hle (List.replicate (l.waiting.length + 1) (.receive k))
    rw [Lines.run_receives capacity hd (Option.join_eq_some_iff.mpr hk)] at hr'
    exact ⟨d', hr'⟩
  · have hk' := Option.join_eq_some_iff.mpr hk
    obtain ⟨d', hc, hl', -⟩ := h.unsubscribe k
    have hmodel : d.lines.call capacity (.unsubscribe k) =
        (.dropped, { d.lines with lines := d.lines.lines.set k none }) := by
      simp only [Lines.call, hk']
    rw [hmodel] at hc hl'
    refine ⟨d', hc, hl', ?_⟩
    rw [Desk.getElem?_lines] at hk'
    obtain ⟨s, hs, -⟩ := Option.map_eq_some_iff.mp hk'
    simp only [Desk.call, hs, Serves.unsubscribe_dropped hd] at hc
    cases hc
    exact ⟨rfl, rfl⟩

/-- A slot that is used again: the second subscriber of the slot gets what is published from then
on, and the one that was there before has been taken out once and for all. -/
theorem bounded_lines_once : (1 : Nat) ≤ 1 ∧ 1 ≤ maxCapacity ∧
    ∃ d, (Desk.new 1).run [.subscribe "a", .subscribe "a", .unsubscribe 0, .subscribe "a",
        .publish "a" 7, .publish "a" 8, .unsubscribe 0, .count, .drop, .receive 2, .receive 2] =
      .ok ([.subscribed 0, .subscribed 1, .dropped, .subscribed 2, .taken 2, .taken 0, .gone,
        .count 2, .dropped, .received (.message 7), .received .disconnected], d) := by
  obtain ⟨d, hr, -⟩ := bounded_lines (show 1 ≤ 1 by decide) (by decide)
    [.subscribe "a", .subscribe "a", .unsubscribe 0, .subscribe "a",
      .publish "a" 7, .publish "a" 8, .unsubscribe 0, .count, .drop, .receive 2, .receive 2]
  exact ⟨by decide, by decide, d, hr⟩

end EventBroker.Gateway
