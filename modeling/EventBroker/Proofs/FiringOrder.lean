import EventBroker.Proofs.Arming
import EventBroker.Proofs.Rules
import EventBroker.Proofs.Streams

/-! # Undivided firing

Deeds are `Whole` if the rules that are taken off the agenda fire right away, one after the other.
Then no rule fires twice, however many steps, tasks and dropped brokers the deeds come from
(`Whole.orders_nodup`).
-/
set_option autoImplicit false

namespace EventBroker.Broker

/-- Deeds in which firing what is due is not interrupted. -/
inductive Whole : Broker → List Deed → Prop
  | nil (b : Broker) : Whole b []
  | fire {b : Broker} (now : Nat) (m : Moment) {rest : List Deed} :
    Whole (b.replay (b.fireDeeds now m)) rest → Whole b (b.fireDeeds now m ++ rest)
  | other {b : Broker} {d : Deed} {rest : List Deed} : d.action.isFiring = false →
    Whole (b.perform d) rest → Whole b (d :: rest)

variable {b : Broker} {live : List Subscription} {deeds deeds' : List Deed} {fired : List Nat}

namespace Whole

theorem append (h : Whole b deeds) (h' : Whole (b.replay deeds) deeds') :
    Whole b (deeds ++ deeds') := by
  induction h with
  | nil b => exact h'
  | fire now m _ ih =>
    rw [replay_append] at h'
    rw [List.append_assoc]
    exact .fire now m (ih h')
  | other hd _ ih => exact .other hd (ih h')

theorem of_not_firing (h : ∀ d ∈ deeds, d.action.isFiring = false) : Whole b deeds := by
  induction deeds generalizing b with
  | nil => exact .nil b
  | cons d rest ih =>
    rw [List.forall_mem_cons] at h
    exact .other h.1 (ih h.2)

theorem fireDeeds (b : Broker) (now : Nat) (m : Moment) : Whole b (b.fireDeeds now m) := by
  have h := Whole.fire (b := b) now m (.nil _)
  rwa [List.append_nil] at h

end Whole

/-- With the broker gone nothing fires. -/
theorem Lawful.firings_of_dropped (h : b.Lawful live deeds) (hs : b.gateway.Serves live)
    (hd : b.gateway.dropped = true) : firings (b.journal deeds) = [] := by
  refine firings_eq_nil fun d hm => ?_
  induction deeds generalizing b live with
  | nil => cases hm
  | cons d₀ rest ih =>
    have hone := serviced hs h.1
    have hkind : d₀.action.fires = false ∧ d₀.action.isDrop = false := by
      have ha := h.1
      obtain ⟨m, action⟩ := d₀
      cases action with
      | receive | receiveUpTo | unsubscribe => exact ⟨rfl, rfl⟩
      | _ => exact Bool.noConfusion (hd.symm.trans ha)
    rcases List.mem_cons.mp hm with rfl | hm
    · exact hkind.1
    · exact ih h.2 hone.serves ((hone.dropped hkind.2).trans hd) hm

/-- No rule fires twice. -/
theorem Whole.orders_nodup (h : Whole b deeds) (hl : b.Linked) (hlaw : b.Lawful live deeds)
    (hserves : b.gateway.Serves live) (hs : Session.Spent b fired) :
    (fired ++ (firings (b.journal deeds)).map (·.rule.order)).Nodup := by
  induction h generalizing live fired with
  | nil b => simpa [journal, firings] using (List.nodup_append.mp hs.nodup).1
  | @fire b now m rest _ ih =>
    obtain ⟨hfirst, hrest⟩ := lawful_append_iff.mp hlaw
    rw [journal_append, firings_append, List.map_append, ← List.append_assoc]
    exact ih (hl.replay _) hrest (hfirst.serves hserves) (hs.fire hl now m)
  | @other b d rest hf _ ih =>
    have hone := serviced hserves hlaw.1
    have hfires : d.action.fires = false := by
      obtain ⟨m, action⟩ := d
      cases action with
      | fire => cases hf
      | _ => rfl
    have hnone : firings (b.journal [d]) = [] := firings_eq_nil (by simpa using hfires)
    rw [show b.journal (d :: rest) = b.journal [d] ++ (b.perform d).journal rest from rfl,
      firings_append, hnone, List.nil_append]
    cases hdrop : d.action.isDrop with
    | false => exact ih (hl.perform d) hlaw.2 hone.serves (hs.perform hf hdrop)
    | true =>
      have hdropped : (b.perform d).gateway.dropped = true := by
        obtain ⟨m, action⟩ := d
        cases action with
        | drop => rfl
        | _ => cases hdrop
      rw [Lawful.firings_of_dropped hlaw.2 hone.serves hdropped]
      simpa using (List.nodup_append.mp hs.nodup).1

end EventBroker.Broker
