import EventBroker.Proofs.Incarnations
import EventBroker.Proofs.SessionRuns

/-! # Registered names

Of all incarnations of a name at most one is registered at a time: `Registry.OncePerName`, which
every deed keeps. So deleting a queue takes just this queue off the list: `listQueues_deleteQueue`.
-/
set_option autoImplicit false

namespace EventBroker

namespace Registry

def OncePerName (r : Registry) : Prop :=
  ∀ t t' q q', r.get? t = some q → r.get? t' = some q' → q.retired = false → q'.retired = false →
    q.id = q'.id → t = t'

variable {r r' : Registry}

theorem OncePerName.empty : Registry.empty.OncePerName := by
  intro t t' q q' hq
  simp [get?, Registry.empty] at hq

/-- Where no incarnation begins and none comes back, names stay once. -/
theorem OncePerName.extends {credit : Nat → Nat} (h : r.OncePerName) (he : r.Extends r' credit)
    (hl : r'.queues.length = r.queues.length) : r'.OncePerName := by
  have hback : ∀ t q', r'.get? t = some q' → q'.retired = false →
      ∃ q, r.get? t = some q ∧ q.retired = false ∧ q.id = q'.id := by
    intro t q' hq' hr'
    have ht : t < r.queues.length := hl ▸ lt_of_get? hq'
    obtain ⟨q'', hq'', hid, hr⟩ := he.kept t r.queues[t] (List.getElem?_eq_getElem ht)
    obtain rfl := Option.some.inj (hq'.symm.trans hq'')
    refine ⟨_, List.getElem?_eq_getElem ht, ?_, hid.symm⟩
    exact Bool.eq_false_iff.mpr fun h => by simp [hr h] at hr'
  intro t t' q q' hq hq' hr hr' hid
  obtain ⟨p, hp, hpr, hpid⟩ := hback t q hq hr
  obtain ⟨p', hp', hpr', hpid'⟩ := hback t' q' hq' hr'
  exact h t t' p p' hp hp' hpr hpr' (by rw [hpid, hid, hpid'])

theorem retired_of_find?_eq_none {id : String} (h : r.find? id = none) {t : Nat} {q : Queue}
    (hq : r.get? t = some q) (hid : q.id = id) : q.retired = true := by
  have := List.find?_eq_none.mp h q (mem_iff_get?.mpr ⟨t, hq⟩)
  simpa [hid] using this

theorem OncePerName.append (h : r.OncePerName) {id : String} (hn : r.find? id = none) :
    (r.append id).OncePerName := by
  intro t t' q q' hq hq' hr hr' hid
  rw [get?_append] at hq hq'
  split at hq
  · next ht =>
    obtain rfl := Option.some.inj hq
    split at hq'
    · next ht' => rw [ht, ht']
    · have := retired_of_find?_eq_none hn hq' hid.symm
      simp [this] at hr'
  · split at hq'
    · obtain rfl := Option.some.inj hq'
      have := retired_of_find?_eq_none hn hq hid
      simp [this] at hr
    · exact h t t' q q' hq hq' hr hr' hid

/-- A registered incarnation is what its name means. -/
theorem OncePerName.find?_of_live (hn : r.OncePerName) (hr : r.Numbered) {q : Queue}
    (hq : q ∈ r.queues) (hlive : q.retired = false) : r.find? q.id = some q := by
  obtain ⟨t, ht⟩ := mem_iff_get?.mp hq
  cases hf : r.find? q.id with
  | none =>
    have hretired := retired_of_find?_eq_none hf ht rfl
    rw [hlive] at hretired
    cases hretired
  | some q' =>
    obtain ⟨-, hlive', hid⟩ := find?_spec hf
    have hq' := hr.get?_of_find? hf
    rw [← hn _ _ q q' ht hq' hlive hlive' hid.symm] at hq'
    exact hq'.symm.trans ht

/-- The incarnations after a change at one serial number. -/
theorem Numbered.queues_update (h : r.Numbered) (serial : Nat) (f : Queue → Queue) :
    (r.update serial f).queues = r.queues.map fun q => if q.serial = serial then f q else q := by
  apply List.ext_getElem?
  intro t
  have hget := get?_update r serial f t
  simp only [get?] at hget
  rw [hget, List.getElem?_map]
  cases hq : r.queues[t]? with
  | none => simp
  | some q =>
    obtain rfl : q.serial = t := h t q hq
    simp only [Option.map_some, eq_comm (a := serial)]
    split <;> rfl

/-- What deleting the queue with a serial number does to an incarnation. -/
def ended (serial cancelled : Nat) (q : Queue) : Queue :=
  if q.serial = serial then q.retire.subPending cancelled else q

theorem Numbered.queues_retire (hr : r.Numbered) (serial cancelled : Nat) :
    ((r.update serial Queue.retire).update serial (·.subPending cancelled)).queues =
      r.queues.map (ended serial cancelled) := by
  rw [(hr.update (f := Queue.retire) serial fun _ => rfl).queues_update, hr.queues_update,
    List.map_map]
  apply List.map_congr_left
  intro p _
  by_cases hs : p.serial = serial
  · simp only [Function.comp_apply, ended, if_pos hs]
    exact if_pos hs
  · simp only [Function.comp_apply, ended, if_neg hs]

/-- Whether an incarnation stays registered is decided by its name, and those that stay are not
changed. -/
theorem OncePerName.ended_stays (hn : r.OncePerName) (hr : r.Numbered) {id : String} {q : Queue}
    (hq : r.find? id = some q) (k : Nat) {p : Queue} (hp : p ∈ r.queues) :
    (!(ended q.serial k p).retired) = (p.id != id && !p.retired) ∧
      ((p.id != id && !p.retired) = true → ended q.serial k p = p) := by
  obtain ⟨-, hqr, hqid⟩ := find?_spec hq
  have hqs := hr.get?_of_find? hq
  obtain ⟨t, ht⟩ := mem_iff_get?.mp hp
  obtain rfl := hr t p ht
  by_cases hs : p.serial = q.serial
  · rw [hs, hqs] at ht
    have hid : p.id = id := by rw [← Option.some.inj ht, hqid]
    simp [ended, hs, hid, Queue.retire, Queue.publish, Queue.subPending]
  · have hended : ended q.serial k p = p := if_neg hs
    refine ⟨?_, fun _ => hended⟩
    rw [hended]
    cases hpr : p.retired with
    | true => simp
    | false =>
      have hid : p.id ≠ id := fun h => hs (hn _ _ p q ht hqs hpr hqr (by rw [h, hqid]))
      simp [hid]

/-- Retiring the registered incarnation of a name takes just this name off the list. -/
theorem OncePerName.registered_retire (hn : r.OncePerName) (hr : r.Numbered) {id : String}
    {q : Queue} (hq : r.find? id = some q) (k : Nat) :
    ((r.update q.serial Queue.retire).update q.serial (·.subPending k)).registered =
      r.registered.filter (·.id != id) := by
  have hstays (p : Queue) (hp : p ∈ r.queues) := hn.ended_stays hr hq k hp
  calc ((r.update q.serial Queue.retire).update q.serial (·.subPending k)).registered
      = (r.queues.map (ended q.serial k)).filter (!·.retired) := by
        rw [registered, hr.queues_retire]
    _ = (r.queues.filter ((!·.retired) ∘ ended q.serial k)).map (ended q.serial k) :=
        List.filter_map
    _ = (r.queues.filter fun p => p.id != id && !p.retired).map (ended q.serial k) := by
        exact congrArg _ (List.filter_congr fun p hp => (hstays p hp).1)
    _ = (r.queues.filter fun p => p.id != id && !p.retired).map fun p => p :=
        List.map_congr_left fun p hp => by
          obtain ⟨hp, hkept⟩ := List.mem_filter.mp hp
          exact (hstays p hp).2 hkept
    _ = r.registered.filter (·.id != id) := by
        rw [List.map_id', registered, List.filter_filter]

end Registry

namespace Broker

variable {b : Broker}

theorem length_foldl_closeChannel (cs : List Channel) (b : Broker) :
    (cs.foldl Broker.closeChannel b).registry.queues.length = b.registry.queues.length := by
  induction cs generalizing b with
  | nil => rfl
  | cons c rest ih =>
    rw [List.foldl_cons, ih, closeChannel_registry]
    exact Registry.length_foldl_update ..

/-- Only creating a queue begins an incarnation. -/
theorem Linked.perform_length (h : b.Linked) (d : Deed) (hc : ∀ id, d.action ≠ .createQueue id) :
    (b.perform d).registry.queues.length = b.registry.queues.length := by
  obtain ⟨m, action⟩ := d
  cases action with
  | createQueue id => exact absurd rfl (hc id)
  | retire id =>
    simp only [Broker.perform, Broker.retire]
    split
    · exact Registry.length_update ..
    · rfl
  | cancelFor target => exact (sameLinks_cancelFor b target).length
  | arm id event targets => exact (sameLinks_arm b id event targets).length
  | fire rule => exact (h.sameLinks_fire rule m).length
  | createChannel id queues options =>
    simp only [Broker.perform]
    rcases b.createChannel_cases id queues options m with ⟨e, he⟩ | ⟨_, ts, -, -, -, he⟩
    · rw [he]
    · rw [he]
      exact Registry.length_foldl_update ..
  | getChannel id =>
    simp only [Broker.perform]
    rw [getChannel_eq]
  | dequeue id =>
    simp only [Broker.perform]
    rw [dequeue_eq]
  | close serial =>
    simp only [Broker.perform]
    split
    · rw [closeChannel_registry]
      exact Registry.length_foldl_update ..
    · rfl
  | subscribe category =>
    simp only [Broker.perform]
    split
    · next hs => rw [subscribe_eq hs]; rfl
    · rfl
  | unsubscribe s =>
    simp only [Broker.perform]
    split
    · next hs => rw [unsubscribe_eq hs]
    · rfl
  | popDue now => rfl
  | receive s => rfl
  | receiveUpTo s max => rfl
  | wake => rfl
  | drop => exact length_foldl_closeChannel b.channels b

theorem Linked.oncePerName_perform (h : b.Linked) (hn : b.registry.OncePerName) (d : Deed) :
    (b.perform d).registry.OncePerName := by
  by_cases hc : ∃ id, d.action = .createQueue id
  · obtain ⟨id, hid⟩ := hc
    simp only [Broker.perform, hid, Broker.createQueue]
    split
    · exact hn
    · split
      · exact hn
      · next hnone => exact hn.append hnone
  · exact hn.extends (h.extends_perform d) (h.perform_length d fun id hid => hc ⟨id, hid⟩)

theorem Linked.oncePerName_replay (h : b.Linked) (hn : b.registry.OncePerName)
    (deeds : List Deed) : (b.replay deeds).registry.OncePerName :=
  (replay_induction (P := fun b => b.Linked ∧ b.registry.OncePerName)
    (fun _ d hb => ⟨hb.1.perform d, hb.1.oncePerName_perform hb.2 d⟩) ⟨h, hn⟩ deeds).2

/-! ## Deleting a queue -/

theorem Linked.listQueues_deleteQueue (hl : b.Linked) (hn : b.registry.OncePerName) {id : String}
    {q : Queue} (hq : b.registry.find? id = some q) :
    (b.deleteQueue id).1 = .ok () ∧
      (b.deleteQueue id).2.listQueues = b.listQueues.filter (·.id != id) := by
  have hretire : b.retire id = (.ok q.serial, b.updateQueue q.serial Queue.retire) := by
    rw [Broker.retire, hq]
  simp only [Broker.deleteQueue, hretire]
  refine ⟨trivial, ?_⟩
  obtain ⟨k, hk⟩ : ∃ k, ((b.updateQueue q.serial Queue.retire).cancelFor q.serial).registry =
      (b.registry.update q.serial Queue.retire).update q.serial (·.subPending k) := ⟨_, rfl⟩
  rw [Broker.listQueues, hk, hn.registered_retire hl.numbered hq, Broker.listQueues,
    List.filter_map]
  rfl

end Broker

namespace Session

theorem Reachable.oncePerName {s : Session} (h : s.Reachable) : s.broker.registry.OncePerName := by
  obtain ⟨supply, settings, b, m, steps, answers, hb, hr⟩ := h
  have hl : (Session.new supply b m).broker.Linked := Broker.Linked.new hb
  rw [run_replays hl hr]
  refine hl.oncePerName_replay ?_ _
  show b.registry.OncePerName
  rw [Broker.new_eq hb]
  exact Registry.OncePerName.empty

end Session

end EventBroker
