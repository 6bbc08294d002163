import EventBroker.Proofs.Books
import EventBroker.Proofs.Publishing
import Mathlib.Algebra.BigOperators.Group.List.Basic
import Mathlib.Algebra.GroupWithZero.Nat

/-! # Streams over a journal

Follows a subscription through a list of deeds. Who is subscribed after a deed is `liveAfter`; a
deed is allowed if it uses live subscriptions only, and the broker only as long as that has not been
dropped. What one deed does is `Serviced`, in particular that what it hands to a subscriber and what
waits afterwards is what was waiting before and the event that fired, if that event is for the
subscriber and finds room. Over an allowed list of deeds this adds up to `Lawful.balance` for one
subscription and to `Lawful.totals` for all of them.
-/
set_option autoImplicit false

namespace EventBroker

namespace Firing

/-- The category under which subscribers get the event: its own, or else the name of the queue. -/
def effectiveCategory (f : Firing) : String := f.rule.event.category.getD f.queue.id

def isFor (f : Firing) (s : Subscription) : Bool := f.effectiveCategory == s.category

/-- Whether fewer than `n` events are waiting for a subscriber when the rule fires. -/
def findsRoom (n : Nat) (f : Firing) (s : Subscription) : Bool :=
  (f.broker.gateway.waiting s).length < n

/-- Whether a subscriber that is registered when the rule fires gets the event. -/
def reaches (n : Nat) (f : Firing) (s : Subscription) : Bool :=
  f.broker.gateway.registers s && (f.isFor s && f.findsRoom n s)

/-- Whether a subscriber that is registered when the rule fires has no room for the event. -/
def misses (n : Nat) (f : Firing) (s : Subscription) : Bool :=
  f.broker.gateway.registers s && (f.isFor s && !f.findsRoom n s)

end Firing

/-- The subscription that a deed makes, if it makes one. -/
def madeBy? (b : Broker) (d : Deed) : Option Subscription :=
  match d.action with
  | .subscribe category => (b.subscribe category).toOption.map (·.1)
  | _ => none

/-- The subscriptions that are made in the course of a journal. -/
def made (journal : List (Broker × Deed)) : List Subscription :=
  journal.filterMap fun (b, d) => madeBy? b d

theorem made_append (journal journal' : List (Broker × Deed)) :
    made (journal ++ journal') = made journal ++ made journal' := List.filterMap_append

/-- What a deed hands to a subscriber. -/
def handedBy (s : Subscription) (b : Broker) (d : Deed) : List DeliveredEvent :=
  match d.action with
  | .receive s' => if s' = s then (b.receive s').1.toList else []
  | .receiveUpTo s' max => if s' = s then (b.receiveUpTo s' max).1 else []
  | _ => []

/-- What a subscriber receives in the course of a journal. -/
def handed (s : Subscription) (journal : List (Broker × Deed)) : List DeliveredEvent :=
  journal.flatMap fun (b, d) => handedBy s b d

theorem handed_append (s : Subscription) (journal journal' : List (Broker × Deed)) :
    handed s (journal ++ journal') = handed s journal ++ handed s journal' :=
  List.flatMap_append

namespace Broker

variable {b : Broker} {live live' : List Subscription} {d : Deed} {deeds : List Deed}
  {s : Subscription}

/-! ## One deed -/

/-- Who is subscribed after a deed. -/
def liveAfter (b : Broker) (live : List Subscription) (d : Deed) : List Subscription :=
  match d.action with
  | .subscribe _ => (madeBy? b d).toList ++ live
  | .unsubscribe s => live.erase s
  | _ => live

/-- A deed may use live subscriptions, and the broker as long as it has not been dropped. -/
def Allows (b : Broker) (live : List Subscription) (d : Deed) : Prop :=
  match d.action with
  | .receive s | .receiveUpTo s _ | .unsubscribe s => s ∈ live
  | _ => b.gateway.dropped = false

/-- What a deed does for the subscribers. -/
structure Serviced (b : Broker) (live : List Subscription) (d : Deed) : Prop where
  serves : (b.perform d).gateway.Serves (b.liveAfter live d)
  capacity : (b.perform d).gateway.capacity = b.gateway.capacity
  dropped : d.action.isDrop = false → (b.perform d).gateway.dropped = b.gateway.dropped
  numbered : (b.perform d).gateway.nextMailbox =
    b.gateway.nextMailbox + (madeBy? b d).toList.length
  serial : ∀ s ∈ madeBy? b d, s.mailbox = b.gateway.nextMailbox
  waiting : ∀ s ∈ live, s ∈ b.liveAfter live d →
    handedBy s b d ++ (b.perform d).gateway.waiting s = b.gateway.waiting s ++
      ((Firing.ofDeed? b d).toList.filter fun f =>
        f.isFor s && f.findsRoom b.gateway.capacity s).map (·.event)

namespace Serviced

/-- A deed that does not touch the gateway. -/
theorem of_gateway (h : b.gateway.Serves live) (hs : d.action.sparesGateway = true) :
    Serviced b live d := by
  have hg := (perform_framed b d).gateway hs
  obtain ⟨m, action⟩ := d
  cases action with
  | fire | subscribe | unsubscribe | receive | receiveUpTo | drop => cases hs
  | _ =>
    refine ⟨?_, congrArg _ hg, fun _ => congrArg _ hg, congrArg _ hg,
      fun _ he => absurd he (Option.not_mem_none _), fun s _ _ => ?_⟩
    · rw [hg]
      exact h
    · rw [hg]
      exact (List.append_nil _).symm

theorem fire (h : b.gateway.Serves live) (hd : b.gateway.dropped = false) (m : Moment)
    (rule : ArmedRule) : Serviced b live ⟨m, .fire rule⟩ := by
  cases hf : b.firing? rule with
  | none =>
    have hg : (b.perform ⟨m, .fire rule⟩).gateway = b.gateway := by
      simp only [Broker.perform]
      rw [fire_of_not_firing? hf]
      rfl
    refine ⟨?_, congrArg _ hg, fun _ => congrArg _ hg, congrArg _ hg,
      fun _ he => absurd he (Option.not_mem_none _), fun s _ _ => ?_⟩
    · rw [hg]
      exact h
    · rw [hg]
      simp [Firing.ofDeed?, hf, handedBy]
  | some q =>
    have hg : (b.perform ⟨m, .fire rule⟩).gateway = _ := fire_gateway hf m
    have hsame := h.publish_sameService hd (delivery rule q.id m.now).category
      (delivery rule q.id m.now)
    refine ⟨?_, ?_, fun _ => ?_, ?_, fun _ he => absurd he (Option.not_mem_none _),
      fun s hs _ => ?_⟩
    · rw [hg]
      exact hsame.serves h
    · rw [hg, hsame.eq]
    · rw [hg, hsame.eq]
    · rw [hg, hsame.eq]
      rfl
    · rw [hg, h.waiting_publish hd _ _ hs]
      simp only [handedBy, List.nil_append, Firing.ofDeed?, hf, Option.map_some,
        Option.toList_some, List.filter_cons, List.filter_nil]
      congr 1
      rw [show (delivery rule q.id m.now).category = rule.event.category.getD q.id from rfl]
      by_cases hcat : s.category = rule.event.category.getD q.id
      · by_cases hroom : (b.gateway.waiting s).length < b.gateway.capacity
        · simp [Firing.isFor, Firing.effectiveCategory, Firing.findsRoom, hcat, hroom,
            Firing.event_eq]
        · simp [Firing.findsRoom, hroom]
      · simp [Firing.isFor, Firing.effectiveCategory, hcat, Ne.symm hcat]

theorem subscribe (h : b.gateway.Serves live) (hd : b.gateway.dropped = false) (m : Moment)
    (category : String) : Serviced b live ⟨m, .subscribe category⟩ := by
  cases hs : b.subscribe category with
  | error e =>
    have hp : b.perform ⟨m, .subscribe category⟩ = b := by simp only [Broker.perform, hs]
    have hm : madeBy? b ⟨m, .subscribe category⟩ = none := by
      simp only [madeBy?, hs]
      rfl
    have hl : b.liveAfter live ⟨m, .subscribe category⟩ = live := by
      simp only [liveAfter, hm]
      rfl
    refine ⟨?_, congrArg (·.gateway.capacity) hp, fun _ => congrArg (·.gateway.dropped) hp, ?_,
      fun s he => ?_, fun s _ _ => ?_⟩
    · rw [hp, hl]
      exact h
    · rw [hp, hm]
      rfl
    · rw [hm] at he
      cases he
    · rw [hp]
      simp [Firing.ofDeed?, handedBy]
  | ok p =>
    obtain ⟨⟨new, g'⟩, hg, he⟩ := Session.map_eq_ok_iff.mp hs
    cases he
    have hp : (b.perform ⟨m, .subscribe category⟩).gateway = g' := by
      simp only [Broker.perform, hs]
      rfl
    have hm : madeBy? b ⟨m, .subscribe category⟩ = some new := by
      simp only [madeBy?, hs]
      rfl
    have hl : b.liveAfter live ⟨m, .subscribe category⟩ = new :: live := by
      simp only [liveAfter, hm]
      rfl
    obtain ⟨hnew, hg'⟩ := Gateway.subscribe_spec hg
    refine ⟨?_, ?_, fun _ => ?_, ?_, fun s he => ?_, fun s hlive _ => ?_⟩
    · rw [hp, hl]
      exact h.subscribe hd hg
    · rw [hp, hg']
      simp
    · rw [hp, hg']
      simp
    · rw [hp, hm, hg']
      rfl
    · rw [hm] at he
      cases he
      rw [hnew]
    · rw [hp, (h.waiting_subscribe hg).2 s hlive]
      simp [Firing.ofDeed?, handedBy]

theorem unsubscribe (h : b.gateway.Serves live) (m : Moment) {s : Subscription} (hs : s ∈ live) :
    Serviced b live ⟨m, .unsubscribe s⟩ := by
  obtain ⟨registered, g', hu, hserves, hwaiting, hdropped, hcapacity, hnext⟩ := h.unsubscribe hs
  have hp : (b.perform ⟨m, .unsubscribe s⟩).gateway = g' := by
    simp only [Broker.perform, Broker.unsubscribe, hu, Except.map]
    cases registered <;> rfl
  refine ⟨?_, ?_, fun _ => ?_, ?_, fun _ he => absurd he (Option.not_mem_none _),
    fun s' hs' hkept => ?_⟩
  · rw [hp]
    exact hserves
  · rw [hp, hcapacity]
  · rw [hp, hdropped]
  · rw [hp, hnext]
    rfl
  · have hne : s' ≠ s := (h.nodup.mem_erase_iff.mp hkept).1
    rw [hp, hwaiting s' hs' hne]
    simp [Firing.ofDeed?, handedBy]

/-- A deed that takes from the front of what waits for one subscriber. -/
theorem of_sameService (h : b.gateway.Serves live) {m : Moment} {action : Action}
    (hl : b.liveAfter live ⟨m, action⟩ = live) (hm : madeBy? b ⟨m, action⟩ = none)
    (hf : Firing.ofDeed? b ⟨m, action⟩ = none)
    (hg : Gateway.SameService b.gateway (b.perform ⟨m, action⟩).gateway)
    (hw : ∀ s ∈ live, handedBy s b ⟨m, action⟩ ++ (b.perform ⟨m, action⟩).gateway.waiting s =
      b.gateway.waiting s) : Serviced b live ⟨m, action⟩ := by
  refine ⟨?_, ?_, fun _ => ?_, ?_, fun s he => ?_, fun s hs _ => ?_⟩
  · rw [hl]
    exact hg.serves h
  · rw [hg.eq]
  · rw [hg.eq]
  · rw [hg.eq, hm]
    rfl
  · rw [hm] at he
    cases he
  · rw [hw s hs, hf]
    simp

theorem receive (h : b.gateway.Serves live) (m : Moment) {s : Subscription} (hs : s ∈ live) :
    Serviced b live ⟨m, .receive s⟩ := by
  refine of_sameService h rfl rfl rfl (Gateway.receive_sameService b.gateway s) fun s' hs' => ?_
  obtain ⟨hown, hothers⟩ := Gateway.receive_waiting b.gateway s
  by_cases he : s = s'
  · subst he
    simp only [handedBy, if_true]
    exact hown
  · simp only [handedBy, if_neg he]
    exact hothers s' fun hbox => he (h.eq_of_mailbox hs hs' hbox.symm)

theorem receiveUpTo (h : b.gateway.Serves live) (m : Moment) {s : Subscription} (hs : s ∈ live)
    (max : Option Nat) : Serviced b live ⟨m, .receiveUpTo s max⟩ := by
  refine of_sameService h rfl rfl rfl (Gateway.receiveUpTo_sameService b.gateway s max)
    fun s' hs' => ?_
  obtain ⟨hown, hothers⟩ := Gateway.receiveUpTo_waiting b.gateway s max
  by_cases he : s = s'
  · subst he
    simp only [handedBy, if_true]
    exact hown
  · simp only [handedBy, if_neg he]
    exact hothers s' fun hbox => he (h.eq_of_mailbox hs hs' hbox.symm)

theorem drop (h : b.gateway.Serves live) (m : Moment) : Serviced b live ⟨m, .drop⟩ := by
  have hp : (b.perform ⟨m, .drop⟩).gateway = b.gateway.drop := by
    simp only [Broker.perform]
    rw [foldl_closeChannel_eq]
    rfl
  refine ⟨?_, ?_, fun hd => Bool.noConfusion hd, ?_, fun _ he => absurd he (Option.not_mem_none _),
    fun s _ _ => ?_⟩
  · rw [hp]
    exact h.drop
  · rw [hp]
    rfl
  · rw [hp]
    rfl
  · rw [hp]
    exact (List.append_nil _).symm

end Serviced

theorem serviced (h : b.gateway.Serves live) (ha : b.Allows live d) : Serviced b live d := by
  obtain ⟨m, action⟩ := d
  cases action with
  | fire rule => exact .fire h ha m rule
  | subscribe category => exact .subscribe h ha m category
  | unsubscribe s => exact .unsubscribe h m ha
  | receive s => exact .receive h m ha
  | receiveUpTo s max => exact .receiveUpTo h m ha max
  | drop => exact .drop h m
  | _ => exact .of_gateway h rfl

/-! ## Lists of deeds -/

/-- Who is subscribed after some deeds. -/
def lives : Broker → List Subscription → List Deed → List Subscription
  | _, live, [] => live
  | b, live, d :: rest => lives (b.perform d) (b.liveAfter live d) rest

/-- Each of some deeds is allowed when its turn comes. -/
def Lawful : Broker → List Subscription → List Deed → Prop
  | _, _, [] => True
  | b, live, d :: rest => b.Allows live d ∧ Lawful (b.perform d) (b.liveAfter live d) rest

theorem lives_append (b : Broker) (live : List Subscription) (deeds deeds' : List Deed) :
    b.lives live (deeds ++ deeds') = (b.replay deeds).lives (b.lives live deeds) deeds' := by
  induction deeds generalizing b live with
  | nil => rfl
  | cons d rest ih => exact ih _ _

theorem lawful_append_iff {deeds' : List Deed} : b.Lawful live (deeds ++ deeds') ↔
    b.Lawful live deeds ∧ (b.replay deeds).Lawful (b.lives live deeds) deeds' := by
  induction deeds generalizing b live with
  | nil => exact ⟨fun h => ⟨trivial, h⟩, fun h => h.2⟩
  | cons d rest ih => exact (and_congr_right fun _ => ih).trans and_assoc.symm

theorem liveAfter_perm (hp : live.Perm live') (d : Deed) :
    (b.liveAfter live d).Perm (b.liveAfter live' d) := by
  obtain ⟨m, action⟩ := d
  cases action with
  | subscribe category => exact hp.append_left _
  | unsubscribe s => exact hp.erase s
  | _ => exact hp

theorem lives_perm (hp : live.Perm live') (deeds : List Deed) :
    (b.lives live deeds).Perm (b.lives live' deeds) := by
  induction deeds generalizing b live live' with
  | nil => exact hp
  | cons d rest ih => exact ih (liveAfter_perm hp d)

theorem Allows.perm (h : b.Allows live d) (hp : live.Perm live') : b.Allows live' d := by
  obtain ⟨m, action⟩ := d
  cases action with
  | receive s | receiveUpTo s | unsubscribe s => exact hp.mem_iff.mp h
  | _ => exact h

theorem Lawful.perm (h : b.Lawful live deeds) (hp : live.Perm live') : b.Lawful live' deeds := by
  induction deeds generalizing b live live' with
  | nil => trivial
  | cons d rest ih => exact ⟨h.1.perm hp, ih h.2 (liveAfter_perm hp d)⟩

namespace Lawful

theorem serves (h : b.Lawful live deeds) (hs : b.gateway.Serves live) :
    (b.replay deeds).gateway.Serves (b.lives live deeds) := by
  induction deeds generalizing b live with
  | nil => exact hs
  | cons d rest ih => exact ih h.2 (serviced hs h.1).serves

theorem capacity (h : b.Lawful live deeds) (hs : b.gateway.Serves live) :
    (b.replay deeds).gateway.capacity = b.gateway.capacity := by
  induction deeds generalizing b live with
  | nil => rfl
  | cons d rest ih =>
    have hd := serviced hs h.1
    exact (ih h.2 hd.serves).trans hd.capacity

theorem dropped (h : b.Lawful live deeds) (hs : b.gateway.Serves live)
    (hd : ∀ d ∈ deeds, d.action.isDrop = false) :
    (b.replay deeds).gateway.dropped = b.gateway.dropped := by
  induction deeds generalizing b live with
  | nil => rfl
  | cons d rest ih =>
    rw [List.forall_mem_cons] at hd
    have hone := serviced hs h.1
    exact (ih h.2 hone.serves hd.2).trans (hone.dropped hd.1)

/-- The mailboxes of the subscriptions that are made are numbered on. -/
theorem made_serials (h : b.Lawful live deeds) (hs : b.gateway.Serves live) :
    (made (b.journal deeds)).map (·.mailbox) =
      List.range' b.gateway.nextMailbox (made (b.journal deeds)).length := by
  induction deeds generalizing b live with
  | nil => rfl
  | cons d rest ih =>
    have hone := serviced hs h.1
    have hrest := ih h.2 hone.serves
    rw [show b.journal (d :: rest) = [(b, d)] ++ (b.perform d).journal rest from rfl, made_append]
    cases hm : madeBy? b d with
    | none =>
      have hnext : (b.perform d).gateway.nextMailbox = b.gateway.nextMailbox := by
        rw [hone.numbered, hm]
        rfl
      simp only [made, List.filterMap_cons, hm, List.filterMap_nil, List.nil_append]
      rw [← hnext]
      exact hrest
    | some s =>
      have hnext : (b.perform d).gateway.nextMailbox = b.gateway.nextMailbox + 1 := by
        rw [hone.numbered, hm]
        rfl
      simp only [made, List.filterMap_cons, hm, List.filterMap_nil, List.singleton_append,
        List.map_cons, List.length_cons, List.range'_succ]
      rw [hone.serial s hm, ← hnext]
      exact congrArg (_ :: ·) hrest

theorem made_nodup (h : b.Lawful live deeds) (hs : b.gateway.Serves live) :
    (made (b.journal deeds)).Nodup := by
  refine List.Nodup.of_map (·.mailbox) ?_
  rw [h.made_serials hs]
  exact List.nodup_range'

/-- Who is subscribed in the end was subscribed at the start or has been made. -/
theorem mem_of_mem_lives (h : s ∈ b.lives live deeds) : s ∈ live ∨ s ∈ made (b.journal deeds) := by
  induction deeds generalizing b live with
  | nil => exact .inl h
  | cons d rest ih =>
    rw [show b.journal (d :: rest) = [(b, d)] ++ (b.perform d).journal rest from rfl, made_append]
    rcases ih h with h | h
    · obtain ⟨m, action⟩ := d
      cases action with
      | subscribe category =>
        rcases List.mem_append.mp h with h | h
        · refine .inr (List.mem_append_left _ ?_)
          rw [made, List.mem_filterMap]
          exact ⟨_, List.mem_singleton_self _, Option.mem_toList.mp h⟩
        · exact .inl h
      | unsubscribe s' => exact .inl (List.mem_of_mem_erase h)
      | _ => exact .inl h
    · exact .inr (List.mem_append_right _ h)

theorem numbered (h : b.Lawful live deeds) (hs : b.gateway.Serves live) :
    (b.replay deeds).gateway.nextMailbox =
      b.gateway.nextMailbox + (made (b.journal deeds)).length := by
  induction deeds generalizing b live with
  | nil => rfl
  | cons d rest ih =>
    have hone := serviced hs h.1
    have hm : made [(b, d)] = (madeBy? b d).toList := by
      cases hm : madeBy? b d <;> simp [made, hm]
    rw [replay_cons, ih h.2 hone.serves, hone.numbered,
      show b.journal (d :: rest) = [(b, d)] ++ (b.perform d).journal rest from rfl, made_append, hm,
      List.length_append, Nat.add_assoc]

/-- A subscription that is there in the end and was made before was there all the time. -/
theorem kept {deeds' : List Deed} (h : b.Lawful live (deeds ++ deeds'))
    (hs : b.gateway.Serves live) (hm : s.mailbox < b.gateway.nextMailbox)
    (hl : s ∈ b.lives live (deeds ++ deeds')) : s ∈ b.lives live deeds := by
  obtain ⟨hfirst, hrest⟩ := lawful_append_iff.mp h
  rw [lives_append] at hl
  rcases mem_of_mem_lives hl with hl | hl
  · exact hl
  · have hserial := List.mem_map_of_mem (f := (·.mailbox)) hl
    rw [hrest.made_serials (hfirst.serves hs), List.mem_range'_1, hfirst.numbered hs] at hserial
    omega

/-- What a subscriber has received and what waits for it is what waited before and what has fired
for it and found room. -/
theorem balance (h : b.Lawful live deeds) (hs : b.gateway.Serves live) (hl : s ∈ live)
    (hkept : s ∈ b.lives live deeds) :
    handed s (b.journal deeds) ++ (b.replay deeds).gateway.waiting s = b.gateway.waiting s ++
      ((firings (b.journal deeds)).filter fun f =>
        f.isFor s && f.findsRoom b.gateway.capacity s).map (·.event) := by
  induction deeds generalizing b live with
  | nil => exact (List.append_nil _).symm
  | cons d rest ih =>
    have hone := serviced hs h.1
    have hmid : s ∈ b.lives live [d] := kept h hs (hs.below s hl) hkept
    have hrest := ih h.2 hone.serves hmid hkept
    have hj : b.journal (d :: rest) = [(b, d)] ++ (b.perform d).journal rest := rfl
    have hf : firings [(b, d)] = (Firing.ofDeed? b d).toList := by
      cases hf : Firing.ofDeed? b d <;> simp [firings, hf]
    calc handed s (b.journal (d :: rest)) ++ (b.replay (d :: rest)).gateway.waiting s
      _ = handedBy s b d ++ (handed s ((b.perform d).journal rest) ++
            ((b.perform d).replay rest).gateway.waiting s) := by
          rw [hj, handed_append, List.append_assoc, replay_cons]
          simp [handed]
      _ = (handedBy s b d ++ (b.perform d).gateway.waiting s) ++
            ((firings ((b.perform d).journal rest)).filter fun f =>
              f.isFor s && f.findsRoom b.gateway.capacity s).map (·.event) := by
          rw [hrest, hone.capacity, List.append_assoc]
      _ = _ := by
          rw [hone.waiting s hl hmid, hj, firings_append, hf, List.filter_append, List.map_append,
            List.append_assoc]

/-- Who is subscribed in the end, and was not at the start, was made by one of the deeds. -/
theorem exists_making (h : s ∈ b.lives live deeds) (hs : s ∉ live) : ∃ before m after,
    deeds = before ++ ⟨m, .subscribe s.category⟩ :: after ∧
      madeBy? (b.replay before) ⟨m, .subscribe s.category⟩ = some s := by
  have hmade := (mem_of_mem_lives h).resolve_left hs
  obtain ⟨⟨b', d⟩, hmem, hd⟩ := List.mem_filterMap.mp hmade
  obtain ⟨before, after, hdeeds, hb⟩ := replay_of_mem_journal hmem
  obtain ⟨m, action⟩ := d
  cases action with
  | subscribe category =>
    have hcategory : category = s.category := by
      simp only [madeBy?] at hd
      cases hsub : b'.subscribe category with
      | error e => simp [hsub, Except.toOption] at hd
      | ok p =>
        obtain ⟨⟨new, g'⟩, hg, rfl⟩ := Session.map_eq_ok_iff.mp hsub
        simp only [hsub, Except.toOption, Option.map_some, Option.some.injEq] at hd
        rw [← hd, (Gateway.subscribe_spec hg).1]
    subst hcategory
    simp only at hb
    exact ⟨before, m, after, hdeeds, hb ▸ hd⟩
  | _ => cases hd

/-- What has just been made has received nothing, and nothing waits for it. -/
theorem waiting_made (hs : b.gateway.Serves live) {m : Moment} {category : String}
    (hm : madeBy? b ⟨m, .subscribe category⟩ = some s) :
    (b.perform ⟨m, .subscribe category⟩).gateway.waiting s = [] := by
  simp only [madeBy?] at hm
  cases hsub : b.subscribe category with
  | error e => simp [hsub, Except.toOption] at hm
  | ok p =>
    obtain ⟨⟨new, g'⟩, hg, rfl⟩ := Session.map_eq_ok_iff.mp hsub
    simp only [hsub, Except.toOption, Option.map_some, Option.some.injEq] at hm
    subst hm
    simp only [perform, hsub]
    exact (hs.waiting_subscribe hg).1

/-- A firing meets a gateway that is there, and registers just those who are subscribed then. -/
theorem registers_iff (h : b.Lawful live deeds) (hs : b.gateway.Serves live) {f : Firing}
    (hf : f ∈ firings (b.journal deeds)) : ∃ before after, deeds = before ++ after ∧
      f.broker = b.replay before ∧
      ∀ s, f.broker.gateway.registers s = true ↔ s ∈ b.lives live before := by
  obtain ⟨⟨b', d⟩, hmem, hd⟩ := List.mem_filterMap.mp hf
  obtain ⟨before, after, rfl, hb⟩ := replay_of_mem_journal hmem
  obtain ⟨hfirst, hrest⟩ := lawful_append_iff.mp h
  obtain ⟨m, action⟩ := d
  cases action with
  | fire rule =>
    obtain ⟨q, -, rfl⟩ := Option.map_eq_some_iff.mp hd
    simp only at hb
    subst hb
    exact ⟨before, _, rfl, rfl, fun s => ((hfirst.serves hs).registered hrest.1 s).symm⟩
  | _ => cases hd

section

variable {before after : List Deed} {m : Moment}

/-- What a subscriber that is there in the end has got since it was made: what it has received and
what waits for it is what has fired for it and found room, in firing order. -/
theorem since_making (h : b.Lawful live (before ++ ⟨m, .subscribe s.category⟩ :: after))
    (hs : b.gateway.Serves live)
    (hm : madeBy? (b.replay before) ⟨m, .subscribe s.category⟩ = some s)
    (hkept : s ∈ b.lives live (before ++ ⟨m, .subscribe s.category⟩ :: after)) :
    let since := ((b.replay before).perform ⟨m, .subscribe s.category⟩).journal after
    handed s since ++
        (b.replay (before ++ ⟨m, .subscribe s.category⟩ :: after)).gateway.waiting s =
      ((firings since).filter fun f =>
        f.isFor s && f.findsRoom b.gateway.capacity s).map (·.event) := by
  obtain ⟨hfirst, hrest⟩ := lawful_append_iff.mp h
  have hserves := hfirst.serves hs
  have hone := serviced hserves hrest.1
  have hlive : s ∈ (b.replay before).liveAfter (b.lives live before)
      ⟨m, .subscribe s.category⟩ :=
    List.mem_append_left _ (Option.mem_toList.mpr hm)
  rw [lives_append] at hkept
  have hb := balance hrest.2 hone.serves hlive hkept
  rw [waiting_made hserves hm, List.nil_append, hone.capacity, hfirst.capacity hs] at hb
  rw [replay_append, replay_cons]
  exact hb

/-- It is registered at each firing since it was made, and at none before. -/
theorem filter_registers (h : b.Lawful live (before ++ ⟨m, .subscribe s.category⟩ :: after))
    (hs : b.gateway.Serves live)
    (hm : madeBy? (b.replay before) ⟨m, .subscribe s.category⟩ = some s)
    (hkept : s ∈ b.lives live (before ++ ⟨m, .subscribe s.category⟩ :: after))
    (p : Firing → Bool) :
    (firings (b.journal (before ++ ⟨m, .subscribe s.category⟩ :: after))).filter
        (fun f => f.broker.gateway.registers s && p f) =
      (firings (((b.replay before).perform ⟨m, .subscribe s.category⟩).journal after)).filter
        p := by
  obtain ⟨hfirst, hrest⟩ := lawful_append_iff.mp h
  have hone := serviced (hfirst.serves hs) hrest.1
  have hlive : s ∈ (b.replay before).liveAfter (b.lives live before)
      ⟨m, .subscribe s.category⟩ :=
    List.mem_append_left _ (Option.mem_toList.mpr hm)
  rw [lives_append] at hkept
  have hearlier : (firings (b.journal before)).filter
      (fun f => f.broker.gateway.registers s && p f) = [] := by
    rw [List.filter_eq_nil_iff]
    intro f hf hr
    obtain ⟨start, rest, rfl, -, hreg⟩ := hfirst.registers_iff hs hf
    obtain ⟨hstart, hmore⟩ := lawful_append_iff.mp hfirst
    -- its mailbox is numbered only later
    have hthen := hstart.serves hs
    have hlt := hthen.below s ((hreg s).mp (Bool.and_eq_true_iff.mp hr).1)
    have hnumbered := hmore.numbered hthen
    have hserial := hone.serial s hm
    rw [replay_append] at hserial
    omega
  have hnone : firings [(b.replay before, (⟨m, .subscribe s.category⟩ : Deed))] = [] := rfl
  rw [journal_append, firings_append, List.filter_append, hearlier, List.nil_append,
    show (b.replay before).journal (⟨m, .subscribe s.category⟩ :: after) =
      [(b.replay before, ⟨m, .subscribe s.category⟩)] ++
        ((b.replay before).perform ⟨m, .subscribe s.category⟩).journal after from rfl,
    firings_append, hnone, List.nil_append]
  refine List.filter_congr fun f hf => ?_
  obtain ⟨start, rest, rfl, -, hreg⟩ := registers_iff hrest.2 hone.serves hf
  have hl := kept hrest.2 hone.serves (hone.serves.below s hlive) hkept
  rw [(hreg s).mpr hl, Bool.true_and]

end

end Lawful

/-! ## All subscribers together -/

/-- Those who are subscribed, counted among all there ever are. -/
theorem countP_live (h : b.gateway.Serves live) (hd : b.gateway.dropped = false)
    {all : List Subscription} (hn : all.Nodup) (hall : ∀ s ∈ live, s ∈ all)
    (p : Subscription → Bool) :
    live.countP p = all.countP fun s => b.gateway.registers s && p s := by
  have hp : live.Perm (all.filter b.gateway.registers) := by
    rw [List.perm_ext_iff_of_nodup h.nodup (hn.filter _)]
    intro s
    rw [List.mem_filter, ← h.registered hd]
    exact ⟨fun hs => ⟨hall s hs, hs⟩, fun hs => hs.2⟩
  rw [hp.countP_eq, List.countP_filter]
  exact List.countP_congr fun s _ => by rw [Bool.and_comm]

/-- What one deed adds to the counts of pushed and of dropped events. -/
theorem perform_totals (h : b.gateway.Serves live) (ha : b.Allows live d)
    {all : List Subscription} (hn : all.Nodup) (hall : ∀ s ∈ live, s ∈ all) :
    (b.perform d).metrics.streamPushed = b.metrics.streamPushed +
        ((Firing.ofDeed? b d).toList.map fun f =>
          all.countP (f.reaches b.gateway.capacity)).sum ∧
      (b.perform d).metrics.streamDropped = b.metrics.streamDropped +
        ((Firing.ofDeed? b d).toList.map fun f =>
          all.countP (f.misses b.gateway.capacity)).sum := by
  by_cases hf : d.action.fires = true
  · obtain ⟨m, action⟩ := d
    cases action with
    | fire rule =>
      have hd : b.gateway.dropped = false := ha
      cases hq : b.firing? rule with
      | none =>
        obtain ⟨hpushed, hdropped⟩ := fire_of_not_firing?_counts hq m
        simp only [Firing.ofDeed?, hq, Option.map_none, Option.toList_none, List.map_nil,
          List.sum_nil, Nat.add_zero]
        exact ⟨hpushed, hdropped⟩
      | some q =>
        obtain ⟨-, -, hpushed, hdropped⟩ := fire_counts hq m
        rw [h.publish_eq hd] at hpushed hdropped
        simp only [Firing.ofDeed?, hq, Option.map_some, Option.toList_some, List.map_cons,
          List.map_nil, List.sum_cons, List.sum_nil, Nat.add_zero]
        have hcat : ∀ s : Subscription, (s.category == (delivery rule q.id m.now).category) =
            (⟨b, m, rule, q⟩ : Firing).isFor s := fun s => Bool.beq_comm
        refine ⟨hpushed.trans (congrArg _ ?_), hdropped.trans (congrArg _ ?_)⟩
        · refine (List.countP_congr fun s _ => ?_).trans (countP_live h hd hn hall _)
          rw [hcat]
          exact Iff.rfl
        · refine (List.countP_congr fun s _ => ?_).trans (countP_live h hd hn hall _)
          rw [hcat]
          exact Iff.rfl
    | _ => cases hf
  · have hc := perform_counts (b := b) (Bool.not_eq_true _ ▸ hf)
    have hnone : Firing.ofDeed? b d = none := by
      obtain ⟨m, action⟩ := d
      cases action with
      | fire rule => exact absurd rfl hf
      | _ => rfl
    rw [hnone]
    exact ⟨hc.pushed, hc.lost⟩

/-- Counting pairs by the firings or by the subscriptions. -/
theorem sum_countP_comm {α β : Type} (p : α → β → Bool) (xs : List α) (ys : List β) :
    (xs.map fun x => ys.countP (p x)).sum = (ys.map fun y => xs.countP (p · y)).sum := by
  have hone : ∀ x, ys.countP (p x) = (ys.map fun y => if p x y then 1 else 0).sum := by
    intro x
    induction ys with
    | nil => rfl
    | cons y rest ih => rw [List.countP_cons, ih, List.map_cons, List.sum_cons, Nat.add_comm]
  induction xs with
  | nil => simp
  | cons x rest ih =>
    rw [List.map_cons, List.sum_cons, ih, hone x, ← List.sum_map_add]
    simp only [List.countP_cons, Nat.add_comm]

namespace Lawful

/-- The counts of pushed and of dropped events are what all subscribers together got and missed. -/
theorem totals (h : b.Lawful live deeds) (hs : b.gateway.Serves live) {all : List Subscription}
    (hn : all.Nodup) (hall : ∀ s, s ∈ live ∨ s ∈ made (b.journal deeds) → s ∈ all) :
    (b.replay deeds).metrics.streamPushed = b.metrics.streamPushed + (all.map fun s =>
        (firings (b.journal deeds)).countP (·.reaches b.gateway.capacity s)).sum ∧
      (b.replay deeds).metrics.streamDropped = b.metrics.streamDropped + (all.map fun s =>
        (firings (b.journal deeds)).countP (·.misses b.gateway.capacity s)).sum := by
  rw [← sum_countP_comm (Firing.reaches b.gateway.capacity),
    ← sum_countP_comm (Firing.misses b.gateway.capacity)]
  induction deeds generalizing b live with
  | nil => exact ⟨rfl, rfl⟩
  | cons d rest ih =>
    have hone := serviced hs h.1
    have hj : b.journal (d :: rest) = [(b, d)] ++ (b.perform d).journal rest := rfl
    have hf : firings [(b, d)] = (Firing.ofDeed? b d).toList := by
      cases hf : Firing.ofDeed? b d <;> simp [firings, hf]
    have hmade : ∀ s, s ∈ b.lives live [d] → s ∈ all := fun s hl =>
      hall s ((mem_of_mem_lives hl).imp_right fun hm => by
        rw [hj, made_append]
        exact List.mem_append_left _ hm)
    obtain ⟨hpushed, hdropped⟩ := perform_totals hs h.1 hn fun s hl => hall s (.inl hl)
    obtain ⟨hpushed', hdropped'⟩ := ih h.2 hone.serves fun s hl => by
      rcases hl with hl | hm
      · exact hmade s hl
      · refine hall s (.inr ?_)
        rw [hj, made_append]
        exact List.mem_append_right _ hm
    rw [replay_cons, hpushed', hdropped', hpushed, hdropped, hone.capacity, hj, firings_append, hf]
    simp only [List.map_append, List.sum_append, Nat.add_assoc, and_self]

end Lawful

end Broker

end EventBroker
