import EventBroker.Broker.Channels
import EventBroker.Broker.Events
import EventBroker.Broker.Queues
import EventBroker.Broker.Streams
import EventBroker.Proofs.Registry
import Mathlib.Data.List.Nodup

/-! # Deeds

Whatever is done to a broker is a sequence of indivisible deeds: `Broker.perform` is what one of
them does, `Broker.replay` what a list of them does, and `Broker.journal` keeps each deed together
with the broker that it met. An operation that takes several deeds is written as their list:

* `fireDeeds`: the rules that are due are taken off the agenda, then fired one by one;
* `deleteQueueDeeds`: the incarnation is retired, then its rules are cancelled;
* `submitDeeds`: an event that is sound is armed;
* `reapDeeds`: idle channels are closed one by one.

From a journal one reads off the `firings`: the rules that fired into an incarnation that was
registered at that moment.
-/
set_option autoImplicit false

namespace EventBroker

inductive Action where
  | createQueue (id : String)
  | retire (id : String)
  | cancelFor (target : Nat)
  | arm (id : EventId) (event : NewEvent) (targets : List Nat)
  | popDue (now : Nat)
  | fire (rule : ArmedRule)
  | createChannel (id : ChannelId) (queues : List String) (options : BufferOptions)
  | getChannel (id : ChannelId)
  | dequeue (id : ChannelId)
  | close (serial : Nat)
  | subscribe (category : String)
  | unsubscribe (s : Subscription)
  | receive (s : Subscription)
  | receiveUpTo (s : Subscription) (max : Option Nat)
  /-- The driver takes note that something was armed. -/
  | wake
  /-- All channels are closed, and the broker is dropped. -/
  | drop

/-- An action at its moment. -/
structure Deed where
  moment : Moment
  action : Action

namespace Broker

/-- The live channel with a serial number. -/
def at? (b : Broker) (serial : Nat) : Option Channel := b.channels.find? (·.serial == serial)

def perform (b : Broker) (d : Deed) : Broker :=
  match d.action with
  | .createQueue id => (b.createQueue id).2
  | .retire id => (b.retire id).2
  | .cancelFor target => b.cancelFor target
  | .arm id event targets => b.arm id event targets
  | .popDue now => (b.popDue now).2
  | .fire rule => b.fire rule d.moment
  | .createChannel id queues options => (b.createChannel id queues options d.moment).2
  | .getChannel id => (b.getChannel id d.moment).2
  | .dequeue id => (b.dequeue id d.moment).2
  | .close serial => match b.at? serial with
    | some c => b.closeChannel c
    | none => b
  | .subscribe category => match b.subscribe category with
    | .ok (_, b) => b
    | .error _ => b
  | .unsubscribe s => match b.unsubscribe s with
    | .ok b => b
    | .error _ => b
  | .receive s => (b.receive s).2
  | .receiveUpTo s max => (b.receiveUpTo s max).2
  | .wake => { b with wakeup := false }
  | .drop => (b.channels.foldl closeChannel b).drop

def replay (b : Broker) (deeds : List Deed) : Broker := deeds.foldl perform b

def journal : Broker → List Deed → List (Broker × Deed)
  | _, [] => []
  | b, d :: rest => (b, d) :: journal (b.perform d) rest

@[simp] theorem replay_nil (b : Broker) : b.replay [] = b := rfl

@[simp] theorem replay_cons (b : Broker) (d : Deed) (rest : List Deed) :
    b.replay (d :: rest) = (b.perform d).replay rest := rfl

theorem replay_append (b : Broker) (deeds deeds' : List Deed) :
    b.replay (deeds ++ deeds') = (b.replay deeds).replay deeds' := List.foldl_append

theorem journal_append (b : Broker) (deeds deeds' : List Deed) :
    b.journal (deeds ++ deeds') = b.journal deeds ++ (b.replay deeds).journal deeds' := by
  induction deeds generalizing b with
  | nil => rfl
  | cons d rest ih => simp [journal, ih]

theorem mem_of_mem_journal {b : Broker} {deeds : List Deed} {y : Broker × Deed}
    (h : y ∈ b.journal deeds) : y.2 ∈ deeds := by
  induction deeds generalizing b with
  | nil => cases h
  | cons d rest ih =>
    rcases List.mem_cons.mp h with rfl | h
    · exact List.mem_cons_self
    · exact List.mem_cons_of_mem _ (ih h)

/-- A part of a journal is the journal of a part. -/
theorem journal_eq_append {b : Broker} {deeds : List Deed} {past rest : List (Broker × Deed)}
    (h : b.journal deeds = past ++ rest) : ∃ before after, deeds = before ++ after ∧
      past = b.journal before ∧ rest = (b.replay before).journal after := by
  induction past generalizing b deeds with
  | nil => exact ⟨[], deeds, rfl, rfl, h.symm⟩
  | cons y past ih =>
    cases deeds with
    | nil => cases h
    | cons d ds =>
      obtain ⟨rfl, ht⟩ := List.cons.inj h
      obtain ⟨before, after, rfl, rfl, rfl⟩ := ih ht
      exact ⟨d :: before, after, rfl, rfl, rfl⟩

/-- Each deed of a journal meets the broker that the deeds before it leave behind. -/
theorem replay_of_mem_journal {b : Broker} {deeds : List Deed} {y : Broker × Deed}
    (h : y ∈ b.journal deeds) : ∃ before after, deeds = before ++ y.2 :: after ∧
      y.1 = b.replay before := by
  obtain ⟨past, later, hj⟩ := List.append_of_mem h
  obtain ⟨before, after, rfl, -, hrest⟩ := journal_eq_append hj
  cases after with
  | nil => cases hrest
  | cons d ds =>
    obtain ⟨rfl, -⟩ := List.cons.inj hrest
    exact ⟨before, ds, rfl, rfl⟩

/-- What every deed keeps, a list of deeds keeps. -/
theorem replay_induction {P : Broker → Prop} (step : ∀ b d, P b → P (b.perform d)) {b : Broker}
    (h : P b) (deeds : List Deed) : P (b.replay deeds) := by
  induction deeds generalizing b with
  | nil => exact h
  | cons d rest ih => exact ih (step b d h)

/-! ## Operations as deeds -/

def fireDeeds (b : Broker) (now : Nat) (m : Moment) : List Deed :=
  ⟨m, .popDue now⟩ :: (b.agenda.popDue now).1.map fun r => ⟨m, .fire r⟩

def deleteQueueDeeds (b : Broker) (id : String) (m : Moment) : List Deed :=
  match b.registry.find? id with
  | some q => [⟨m, .retire id⟩, ⟨m, .cancelFor q.serial⟩]
  | none => []

def submitDeeds (b : Broker) (id : EventId) (event : NewEvent) (m : Moment) : List Deed :=
  match b.targets event with
  | .ok targets => [⟨m, .arm id event targets⟩]
  | .error _ => []

def closeDeeds (b : Broker) (id : ChannelId) (m : Moment) : List Deed :=
  match b.channel? id with
  | some c => [⟨m, .close c.serial⟩]
  | none => []

def reapDeeds (b : Broker) (timeout : Nat) (m : Moment) : List Deed :=
  (b.channels.filter (·.isIdle m.now timeout)).map fun c => ⟨m, .close c.serial⟩

theorem replay_fires (b : Broker) (m : Moment) (rules : List ArmedRule) :
    b.replay (rules.map fun r => ⟨m, .fire r⟩) = rules.foldl (fun b r => b.fire r m) b := by
  simp [replay, List.foldl_map, perform]

theorem replay_fireDeeds (b : Broker) (now : Nat) (m : Moment) :
    b.replay (b.fireDeeds now m) = (b.fireDue now m).2 := by
  rw [fireDeeds, replay_cons, replay_fires]
  rfl

theorem replay_deleteQueueDeeds (b : Broker) (id : String) (m : Moment) :
    b.replay (b.deleteQueueDeeds id m) = (b.deleteQueue id).2 := by
  unfold deleteQueueDeeds deleteQueue
  cases h : b.registry.find? id with
  | none => simp [retire, h]
  | some q => simp [retire, h, perform]

theorem replay_submitDeeds (b : Broker) (id : EventId) (event : NewEvent) (m : Moment) :
    b.replay (b.submitDeeds id event m) = (b.submit id event).2 := by
  unfold submitDeeds submit
  cases b.targets event with
  | error e => rfl
  | ok targets => rfl

/-! ## The live channels -/

theorem mem_of_at? {b : Broker} {serial : Nat} {c : Channel} (h : b.at? serial = some c) :
    c ∈ b.channels := List.mem_of_find?_eq_some h

theorem serial_of_at? {b : Broker} {serial : Nat} {c : Channel} (h : b.at? serial = some c) :
    c.serial = serial := by
  simpa using List.find?_some h

theorem at?_eq_none_iff {b : Broker} {serial : Nat} :
    b.at? serial = none ↔ ∀ c ∈ b.channels, c.serial ≠ serial := by
  simp [at?]

/-- Serial numbers tell live channels apart. -/
def Distinct (b : Broker) : Prop := (b.channels.map (·.serial)).Nodup

theorem Distinct.eq_of_serial {b : Broker} (h : b.Distinct) {c c' : Channel}
    (hc : c ∈ b.channels) (hc' : c' ∈ b.channels) (he : c.serial = c'.serial) : c = c' :=
  List.inj_on_of_nodup_map h hc hc' he

theorem Distinct.at?_of_mem {b : Broker} (h : b.Distinct) {c : Channel} (hc : c ∈ b.channels) :
    b.at? c.serial = some c := by
  cases ha : b.at? c.serial with
  | none => exact absurd rfl (at?_eq_none_iff.mp ha c hc)
  | some c' => rw [h.eq_of_serial (mem_of_at? ha) hc (serial_of_at? ha)]

/-- The view of channels that are changed one by one and keep their serial numbers. -/
theorem at?_map {b b' : Broker} {f : Channel → Channel} (hf : ∀ c, (f c).serial = c.serial)
    (h : b'.channels = b.channels.map f) (n : Nat) : b'.at? n = (b.at? n).map f := by
  rw [at?, h, List.find?_map]
  simp only [Function.comp_def, hf]
  rfl

/-! ## Closing channels -/

theorem foldl_updateQueue (targets : List Nat) (f : Queue → Queue) (b : Broker) :
    targets.foldl (fun b t => b.updateQueue t f) b =
      { b with registry := targets.foldl (fun r t => r.update t f) b.registry } := by
  induction targets generalizing b with
  | nil => rfl
  | cons t rest ih => rw [List.foldl_cons, ih]; rfl

theorem closeChannel_channels (b : Broker) (c : Channel) :
    (b.closeChannel c).channels = b.channels.filter (·.serial != c.serial) := by
  rw [closeChannel, foldl_updateQueue]

theorem Distinct.closeChannel {b : Broker} (h : b.Distinct) (c : Channel) :
    (b.closeChannel c).Distinct := by
  rw [Distinct, closeChannel_channels]
  exact h.sublist (List.filter_sublist.map _)

/-- Closing one channel leaves the others alive. -/
theorem Distinct.sublist_closeChannel {b : Broker} (h : b.Distinct) {c : Channel}
    {rest : List Channel} (hs : (c :: rest).Sublist b.channels) :
    rest.Sublist (b.closeChannel c).channels := by
  have hn : (c :: rest).Pairwise fun x y => x.serial ≠ y.serial :=
    List.pairwise_map.mp (h.sublist (hs.map (·.serial)))
  have hf := (List.sublist_of_cons_sublist hs).filter (·.serial != c.serial)
  rw [List.filter_eq_self.mpr] at hf
  · rw [closeChannel_channels]
    exact hf
  · intro x hx
    simpa using ((List.pairwise_cons.mp hn).1 x hx).symm

/-- Closing live channels one after another: each is still the one with its serial number when its
turn comes. -/
theorem Distinct.replay_close {b : Broker} (h : b.Distinct) (m : Moment) {cs : List Channel}
    (hs : cs.Sublist b.channels) :
    b.replay (cs.map fun c => ⟨m, .close c.serial⟩) = cs.foldl Broker.closeChannel b := by
  induction cs generalizing b with
  | nil => rfl
  | cons c rest ih =>
    have hc : b.at? c.serial = some c := h.at?_of_mem (hs.subset List.mem_cons_self)
    rw [List.map_cons, replay_cons, List.foldl_cons,
      ← ih (h.closeChannel c) (h.sublist_closeChannel hs)]
    simp [perform, hc]

theorem Distinct.replay_reapDeeds {b : Broker} (h : b.Distinct) (timeout : Nat) (m : Moment) :
    b.replay (b.reapDeeds timeout m) = (b.reap timeout m).2 :=
  h.replay_close m List.filter_sublist

theorem channels_foldl_closeChannel (cs : List Channel) (b : Broker) :
    (cs.foldl closeChannel b).channels =
      b.channels.filter fun c => cs.all (c.serial != ·.serial) := by
  induction cs generalizing b with
  | nil => simp
  | cons c rest ih =>
    rw [List.foldl_cons, ih, closeChannel_channels, List.filter_filter]
    apply List.filter_congr
    intro x _
    rw [List.all_cons, Bool.and_comm]

theorem channels_close_all (b : Broker) : (b.channels.foldl closeChannel b).channels = [] := by
  rw [channels_foldl_closeChannel, List.filter_eq_nil_iff]
  intro c hc
  simp only [List.all_eq_true, bne_iff_ne, ne_eq, not_forall, not_not]
  exact ⟨c, hc, rfl⟩

end Broker

end EventBroker
