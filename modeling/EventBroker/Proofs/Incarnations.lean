import EventBroker.Proofs.Links

/-! # The life of an incarnation

Incarnations are never removed. Each keeps its serial number and its name, once retired it stays
retired, and what it counts as delivered grows by what fires into it: `Registry.Extends` says all
this of two registries and of the credit that each incarnation gets from the one to the other, and
`Linked.extends_replay` of what a list of deeds does.
-/
set_option autoImplicit false

namespace EventBroker

namespace Registry

/-- What the incarnation with a serial number counts as delivered; nothing before it begins. -/
def deliveredTo (r : Registry) (t : Nat) : Nat := ((r.get? t).map (·.delivered)).getD 0

structure Extends (r r' : Registry) (credit : Nat → Nat) : Prop where
  kept : ∀ t q, r.get? t = some q →
    ∃ q', r'.get? t = some q' ∧ q'.id = q.id ∧ (q.retired = true → q'.retired = true)
  delivered : ∀ t, r'.deliveredTo t = r.deliveredTo t + credit t

/-- Whether a change of an incarnation keeps its name and its count, and does not undo its end. -/
def Modest (f : Queue → Queue) : Prop :=
  ∀ q, (f q).id = q.id ∧ (q.retired = true → (f q).retired = true) ∧ (f q).delivered = q.delivered

theorem Modest.addPending (n : Nat) : Modest (·.addPending n) := fun _ => ⟨rfl, id, rfl⟩

theorem Modest.subPending (n : Nat) : Modest (·.subPending n) := fun _ => ⟨rfl, id, rfl⟩

theorem Modest.retire : Modest Queue.retire := fun _ => ⟨rfl, fun _ => rfl, rfl⟩

theorem Modest.attach (channel : Nat) : Modest (·.attach channel) := fun _ => ⟨rfl, id, rfl⟩

theorem Modest.detach (channel : Nat) : Modest (·.detach channel) := by
  intro q
  simp only [Queue.detach]
  split <;> exact ⟨rfl, id, rfl⟩

namespace Extends

variable {r r' r'' : Registry} {credit credit' : Nat → Nat} {f : Queue → Queue}

theorem refl (r : Registry) : r.Extends r fun _ => 0 :=
  ⟨fun _ q hq => ⟨q, hq, rfl, id⟩, fun _ => rfl⟩

theorem trans (h : r.Extends r' credit) (h' : r'.Extends r'' credit') :
    r.Extends r'' fun t => credit t + credit' t where
  kept t q hq := by
    obtain ⟨q', hq', hid, hr⟩ := h.kept t q hq
    obtain ⟨q'', hq'', hid', hr'⟩ := h'.kept t q' hq'
    exact ⟨q'', hq'', hid'.trans hid, hr' ∘ hr⟩
  delivered t := by rw [h'.delivered, h.delivered, Nat.add_assoc]

theorem update (hf : Modest f) (r : Registry) (serial : Nat) :
    r.Extends (r.update serial f) fun _ => 0 where
  kept t q hq := by
    rw [get?_update, hq]
    split
    · exact ⟨f q, rfl, (hf q).1, (hf q).2.1⟩
    · exact ⟨q, rfl, rfl, id⟩
  delivered t := by
    simp only [deliveredTo, get?_update]
    split
    · simp [Option.map_map, Function.comp_def, (hf _).2.2]
    · rfl

theorem foldl_update (hf : Modest f) (targets : List Nat) (r : Registry) :
    r.Extends (targets.foldl (fun r s => r.update s f) r) fun _ => 0 := by
  induction targets generalizing r with
  | nil => exact refl r
  | cons s rest ih => exact (update hf r s).trans (ih (r.update s f))

theorem append (r : Registry) (id : String) : r.Extends (r.append id) fun _ => 0 where
  kept t q hq := by
    have := lt_of_get? hq
    rw [get?_append, if_neg (by omega), hq]
    exact ⟨q, rfl, rfl, fun h => h⟩
  delivered t := by
    simp only [deliveredTo, get?_append]
    split
    · next ht =>
      subst ht
      simp [get?, Queue.new]
    · rfl

end Extends

end Registry

/-- How often what has fired went into an incarnation. -/
def firedInto (fs : List Firing) (t : Nat) : Nat := fs.countP (·.queue.serial == t)

theorem firedInto_append (fs fs' : List Firing) (t : Nat) :
    firedInto (fs ++ fs') t = firedInto fs t + firedInto fs' t := List.countP_append

namespace Broker

variable {b : Broker}

theorem Linked.extends_fire (h : b.Linked) (rule : ArmedRule) (m : Moment) :
    b.registry.Extends (b.fire rule m).registry
      (firedInto (firings [(b, ⟨m, .fire rule⟩)])) where
  kept t q hq := by
    rw [fire_get? h.numbered, hq]
    split
    · exact ⟨settled q, rfl, rfl, fun hr => hr⟩
    · exact ⟨q, rfl, rfl, fun hr => hr⟩
  delivered t := by
    have hc : firedInto (firings [(b, ⟨m, .fire rule⟩)]) t =
        if rule.target = t then ((b.firing? rule).map fun _ => 1).getD 0 else 0 := by
      cases hf : b.firing? rule with
      | none => simp [firings, Firing.ofDeed?, hf, firedInto]
      | some q =>
        have hs : q.serial = rule.target := h.numbered _ q (firing?_eq_some_iff.mp hf).1
        simp [firings, Firing.ofDeed?, hf, firedInto, hs, List.countP_cons]
    simp only [Registry.deliveredTo, hc, fire_get? h.numbered]
    split
    · next ht =>
      subst ht
      cases hq : b.registry.get? rule.target with
      | none => simp [firing?, hq]
      | some q => cases hr : q.retired <;> simp [firing?, hq, hr, settled, Option.filter]
    · rfl

theorem extends_closeChannel (b : Broker) (c : Channel) :
    b.registry.Extends (b.closeChannel c).registry fun _ => 0 := by
  rw [closeChannel_registry]
  exact .foldl_update (.detach c.serial) _ b.registry

theorem extends_foldl_closeChannel (cs : List Channel) (b : Broker) :
    b.registry.Extends (cs.foldl closeChannel b).registry fun _ => 0 := by
  induction cs generalizing b with
  | nil => exact .refl _
  | cons c rest ih => exact (extends_closeChannel b c).trans (ih (b.closeChannel c))

theorem Linked.extends_perform (h : b.Linked) (d : Deed) :
    b.registry.Extends (b.perform d).registry (firedInto (firings [(b, d)])) := by
  obtain ⟨m, action⟩ := d
  cases action with
  | createQueue id =>
    simp only [Broker.perform, Broker.createQueue]
    split
    · exact .refl _
    · split
      · exact .refl _
      · exact .append _ _
  | retire id =>
    simp only [Broker.perform, Broker.retire]
    split
    · exact .update .retire _ _
    · exact .refl _
  | cancelFor target => exact .update (.subPending _) _ _
  | arm id event targets =>
    have hf : ∀ (os : List (Nat × Nat)) (r : Registry),
        r.Extends (os.foldl (fun r o => r.update o.1 (·.addPending 1)) r)
          fun _ => 0 := by
      intro os
      induction os with
      | nil => exact fun r => .refl r
      | cons o rest ih =>
        exact fun r => (Registry.Extends.update (.addPending 1) r o.1).trans (ih _)
    exact hf _ _
  | fire rule => exact h.extends_fire rule m
  | createChannel id queues options =>
    simp only [Broker.perform]
    rcases b.createChannel_cases id queues options m with ⟨e, he⟩ | ⟨_, ts, -, -, -, he⟩
    · rw [he]
      exact .refl _
    · rw [he]
      exact .foldl_update (.attach b.nextChannel) ts b.registry
  | getChannel id =>
    simp only [Broker.perform]
    rw [getChannel_eq]
    exact .refl _
  | dequeue id =>
    simp only [Broker.perform]
    rw [dequeue_eq]
    exact .refl _
  | close serial =>
    simp only [Broker.perform]
    split
    · exact extends_closeChannel b _
    · exact .refl _
  | subscribe category =>
    simp only [Broker.perform]
    split
    · next hs =>
      rw [subscribe_eq hs]
      exact .refl _
    · exact .refl _
  | unsubscribe s =>
    simp only [Broker.perform]
    split
    · next hs =>
      rw [unsubscribe_eq hs]
      exact .refl _
    · exact .refl _
  | popDue now => exact .refl _
  | receive s => exact .refl _
  | receiveUpTo s max => exact .refl _
  | wake => exact .refl _
  | drop => exact extends_foldl_closeChannel b.channels b

theorem Linked.extends_replay (h : b.Linked) (deeds : List Deed) :
    b.registry.Extends (b.replay deeds).registry (firedInto (firings (b.journal deeds))) := by
  induction deeds generalizing b with
  | nil => exact .refl _
  | cons d rest ih =>
    have ht := (h.extends_perform d).trans (ih (h.perform d))
    rw [show b.journal (d :: rest) = [(b, d)] ++ (b.perform d).journal rest from rfl,
      firings_append]
    have hc : firedInto (firings [(b, d)] ++ firings ((b.perform d).journal rest)) = fun t =>
        firedInto (firings [(b, d)]) t + firedInto (firings ((b.perform d).journal rest)) t :=
      funext fun t => firedInto_append _ _ t
    rw [hc]
    exact ht

/-- Each firing of a journal goes into an incarnation that is on record when it happens. -/
theorem Linked.extends_firing (h : b.Linked) {deeds : List Deed} {f : Firing}
    (hf : f ∈ firings (b.journal deeds)) :
    f.broker.registry.get? f.queue.serial = some f.queue ∧ f.queue.retired = false ∧
      f.queue.serial = f.rule.target ∧ ∃ credit, b.registry.Extends f.broker.registry credit := by
  induction deeds generalizing b with
  | nil => cases hf
  | cons d rest ih =>
    rw [show b.journal (d :: rest) = [(b, d)] ++ (b.perform d).journal rest from rfl,
      firings_append, List.mem_append] at hf
    rcases hf with hf | hf
    · obtain ⟨m, action⟩ := d
      cases action with
      | fire rule =>
        simp only [firings, List.filterMap_cons, List.filterMap_nil, Firing.ofDeed?] at hf
        cases hq : b.firing? rule with
        | none => simp [hq] at hf
        | some q =>
          simp only [hq, Option.map_some, List.mem_singleton] at hf
          subst hf
          obtain ⟨hg, hr⟩ := firing?_eq_some_iff.mp hq
          have hs := h.numbered _ q hg
          exact ⟨by rw [hs]; exact hg, hr, hs, _, .refl _⟩
      | _ => cases hf
    · obtain ⟨hg, hr, hs, credit, he⟩ := ih (h.perform d) hf
      exact ⟨hg, hr, hs, _, (h.extends_perform d).trans he⟩

end Broker

end EventBroker
