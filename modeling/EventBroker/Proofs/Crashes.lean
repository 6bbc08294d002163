import EventBroker.Proofs.Attendance

/-! # What a session does not survive

A broker is made for any capacity but zero, and then a session goes on whatever is asked of it, with
one exception: no mailbox can be made for more than `Gateway.maxCapacity` messages, and nobody looks
at that before the first stream is opened. `AtRest.step_cases` says so of one step and
`AtRest.run_cases` of a list of steps.

What else could go wrong does not: a subscription that is given up is always found in its slot and
has been counted, a longer agenda is never made by cancelling, and what is read off the clocks or
slept is a word if what it is computed from is.
-/
set_option autoImplicit false

namespace EventBroker

/-- Whether a step opens a stream: it subscribes, or its handshake asks for the stream of a category
and there is nothing wrong with it. -/
def Step.opensStream (x : Step) : Bool :=
  match x with
  | .subscribe _ => true
  | .connect _ => x.request?.any fun req => (Api.opens? req).isSome
  | _ => false

namespace Gateway

variable {α : Type} {g : Gateway α} {live : List Subscription} {sub : Subscription}

/-- A mailbox is made, or it cannot be made for so many messages. -/
theorem subscribe_cases (h : 0 < g.capacity) (category : String) :
    (maxCapacity < g.capacity ∧ g.subscribe category = .error (.mailboxCapacity g.capacity)) ∨
      (g.capacity ≤ maxCapacity ∧ ∃ p, g.subscribe category = .ok p) := by
  unfold subscribe
  by_cases hmax : maxCapacity < g.capacity
  · exact .inl ⟨hmax, if_pos (.inr hmax)⟩
  · refine .inr ⟨Nat.le_of_not_lt hmax, _, if_neg ?_⟩
    omega

/-- Whoever is served has been counted and is found. -/
theorem Serves.unsubscribe_registered (h : g.Serves live) (hd : g.dropped = false)
    (hs : sub ∈ live) : 0 < g.subscribers ∧ ∃ g', g.unsubscribe sub = .ok (true, g') := by
  obtain ⟨c, -, -, hu⟩ := h.unsubscribe_spec hd hs
  refine ⟨?_, _, hu⟩
  rw [h.count hd]
  exact List.length_pos_of_mem hs

end Gateway

/-- Cancelling takes away what it says it does. -/
theorem Agenda.cancel_length (a : Agenda) (target : Nat) :
    (a.cancel target).1 + (a.cancel target).2.rules.length = a.rules.length :=
  Nat.sub_add_cancel (List.length_filter_le _ _)

namespace Broker

variable {b : Broker} {live : List Subscription} {deeds : List Deed} {y : Broker × Deed}

theorem subscribe_cases (h : 0 < b.gateway.capacity) (category : String) :
    (Gateway.maxCapacity < b.gateway.capacity ∧
        b.subscribe category = .error (.mailboxCapacity b.gateway.capacity)) ∨
      (b.gateway.capacity ≤ Gateway.maxCapacity ∧ ∃ p, b.subscribe category = .ok p) := by
  unfold subscribe
  rcases Gateway.subscribe_cases h category with ⟨hmax, hs⟩ | ⟨hmax, p, hs⟩
  · rw [hs]
    exact .inl ⟨hmax, rfl⟩
  · rw [hs]
    exact .inr ⟨hmax, _, rfl⟩

/-- Each of some lawful deeds meets a broker that serves somebody and allows the deed. -/
theorem Lawful.of_mem_journal (h : b.Lawful live deeds) (hs : b.gateway.Serves live)
    (hy : y ∈ b.journal deeds) : ∃ served, y.1.gateway.Serves served ∧ y.1.Allows served y.2 := by
  obtain ⟨before, after, rfl, he⟩ := replay_of_mem_journal hy
  obtain ⟨hbefore, hallows, -⟩ := lawful_append_iff.mp h
  rw [he]
  exact ⟨_, hbefore.serves hs, hallows⟩

end Broker

namespace Api

/-- A request that opens no stream is answered. -/
theorem serve_of_none {req : Http.Request} (ho : opens? req = none) (b : Broker) (fresh : FreshIds)
    (m : Moment) : ∃ r b', serve b fresh m req = .ok (.response r, b') := by
  cases hc : isCensus req with
  | true =>
    obtain ⟨r, hr⟩ := serve_census hc b fresh m
    exact ⟨r, b, hr⟩
  | false =>
    obtain ⟨r, b', -, hr, -⟩ :=
      serve_agree (.refl (fun _ => false) b) (isApart_of_none req) hc ho fresh m
    exact ⟨r, b', hr⟩

end Api

namespace Session

variable {s t : Session} {x : Step} {a : Answer}

/-! ## Steps -/

/-- A step succeeds, and a stream that it opens is there, or it opens a stream and no mailbox can be
made. -/
def Survives (s : Session) (x : Step) {β : Type} (r : Except Crash (Answer × β)) : Prop :=
  (x.opensStream = true ∧ Gateway.maxCapacity < s.broker.gateway.capacity ∧
      r = .error (.mailboxCapacity s.broker.gateway.capacity)) ∨
    ((x.opensStream = true → s.broker.gateway.capacity ≤ Gateway.maxCapacity) ∧
      ∃ a t, r = .ok (a, t) ∧ (x.opensStream = true → a.joined?.isSome = true))

theorem survives_of_ok {β : Type} {t : β} (hx : x.opensStream = false) :
    s.Survives x (.ok (a, t)) :=
  .inr ⟨fun h => absurd h (by simp [hx]), a, t, rfl, fun h => absurd h (by simp [hx])⟩

theorem survives_subscribe (h : 0 < s.broker.gateway.capacity) (category : String) :
    s.Survives (.subscribe category) (s.act (.subscribe category)) := by
  unfold act
  rcases Broker.subscribe_cases h category with ⟨hmax, hs⟩ | ⟨hmax, p, hs⟩
  · simp only [hs]
    exact .inl ⟨rfl, hmax, rfl⟩
  · simp only [hs]
    exact .inr ⟨fun _ => hmax, _, _, rfl, fun _ => rfl⟩

theorem survives_http (s : Session) (r : RawRequest) :
    s.Survives (.http r) (s.act (.http r)) := by
  simp only [act, http]
  cases hreq : request? r false with
  | none => exact survives_of_ok rfl
  | some req =>
    obtain ⟨response, b, hserve⟩ :=
      Api.serve_of_none (opens?_of_request? hreq) s.broker s.fresh s.moment
    simp only [hserve]
    exact survives_of_ok rfl

theorem survives_connect (h : 0 < s.broker.gateway.capacity) (path : String) :
    s.Survives (.connect path) (s.act (.connect path)) := by
  simp only [act, connect]
  cases hreq : request? ⟨"GET", "ws://localhost" ++ path, none, []⟩ true with
  | none => exact survives_of_ok (by simp [Step.opensStream, Step.request?, hreq])
  | some req =>
    cases hopens : Api.opens? req with
    | none =>
      obtain ⟨response, b, hserve⟩ := Api.serve_of_none hopens s.broker s.fresh s.moment
      simp only [hserve]
      exact survives_of_ok (by simp [Step.opensStream, Step.request?, hreq, hopens])
    | some category =>
      have hopen : (Step.connect path).opensStream = true := by
        simp [Step.opensStream, Step.request?, hreq, hopens]
      simp only [Api.serve_opens hopens]
      rcases Broker.subscribe_cases h category with ⟨hmax, hs⟩ | ⟨hmax, p, hs⟩
      · rw [hs]
        exact .inl ⟨hopen, hmax, rfl⟩
      · rw [hs]
        exact .inr ⟨fun _ => hmax, _, _, rfl, fun _ => rfl⟩

theorem AtRest.act_survives (h : s.AtRest) (hcap : 0 < s.broker.gateway.capacity) (x : Step) :
    s.Survives x (s.act x) := by
  cases hl : x.listener? with
  | some l =>
    obtain ⟨a, t, ha, -⟩ := act_turned h.streaming.serves hl
    rw [ha]
    refine survives_of_ok ?_
    cases x with
    | subscribe | connect => cases hl
    | _ => rfl
  | none =>
    cases x with
    | subscribe category => exact survives_subscribe hcap category
    | http r => exact survives_http s r
    | connect path => exact survives_connect hcap path
    | advance ms =>
      obtain ⟨t, ht, -⟩ := h.advance ms
      simp only [act, ht]
      exact survives_of_ok rfl
    | receive | receiveOne | unsubscribe | readSocket | send | closeSocket => cases hl
    | _ => exact survives_of_ok rfl

/-- Nothing goes wrong in a step but that a mailbox cannot be made. -/
theorem AtRest.step_survives (h : s.AtRest)
    (hx : s.broker.gateway.dropped = true → x.outlivesBroker = true)
    (hcap : 0 < s.broker.gateway.capacity) : s.Survives x (s.step x) := by
  rcases h.act_survives hcap x with ⟨hopens, hmax, ha⟩ | ⟨hmax, a, acted, ha, hjoined⟩
  · refine .inl ⟨hopens, hmax, ?_⟩
    simp only [Session.step, ha]
    rfl
  · obtain ⟨t, ht, -⟩ := (h.acted hx ha).settle
    exact .inr ⟨hmax, a, t, step_eq_ok_iff.mpr ⟨acted, ha, ht⟩, hjoined⟩

/-! ## Runs -/

theorem Leads.capacity {deeds : List Deed} (h : Leads s deeds t)
    (hs : s.broker.gateway.Serves s.held) :
    t.broker.gateway.capacity = s.broker.gateway.capacity := by
  rw [h.broker]
  exact h.lawful.capacity hs

/-- A list of steps succeeds, and all streams that are opened are there, or one of the steps opens a
stream and no mailbox can be made. -/
theorem AtRest.run_cases {steps : List Step} (h : s.AtRest) (hs : Sensible steps)
    (hx : s.broker.gateway.dropped = true → ∀ x ∈ steps, x.outlivesBroker = true)
    (hcap : 0 < s.broker.gateway.capacity) :
    (Gateway.maxCapacity < s.broker.gateway.capacity ∧ (∃ x ∈ steps, x.opensStream = true) ∧
      s.run steps = .error (.mailboxCapacity s.broker.gateway.capacity)) ∨
    ((s.broker.gateway.capacity ≤ Gateway.maxCapacity ∨ ∀ x ∈ steps, x.opensStream = false) ∧
      ∃ answers t, s.run steps = .ok (answers, t) ∧
        List.Forall₂ (fun x a => x.opensStream = true → a.joined?.isSome = true)
          steps answers) := by
  -- the session after a step is at rest again, with the capacity that it had
  induction steps generalizing s with
  | nil => exact .inr ⟨.inr fun _ hx => absurd hx List.not_mem_nil, [], s, rfl, .nil⟩
  | cons x rest ih =>
    have hout : s.broker.gateway.dropped = true → x.outlivesBroker = true := fun hd =>
      hx hd x List.mem_cons_self
    rcases h.step_survives hout hcap with ⟨hopens, hmax, hstep⟩ | ⟨hmax, a, mid, hstep, hjoined⟩
    · refine .inl ⟨hmax, ⟨x, List.mem_cons_self, hopens⟩, ?_⟩
      rw [Session.run, hstep]
      rfl
    · have hleads := (step_leads h.streaming h.linked hout hstep).1
      obtain ⟨hrest, hlater⟩ := hs.step h.streaming hx hleads
      have hsame := hleads.capacity h.streaming.serves
      rw [← hsame] at hcap hmax ⊢
      rcases ih (h.step hout hstep) hrest hlater hcap with
        ⟨hlarge, ⟨y, hy, hopens⟩, hr⟩ | ⟨hfits, answers, final, hr, hanswers⟩
      · refine .inl ⟨hlarge, ⟨y, List.mem_cons_of_mem _ hy, hopens⟩, ?_⟩
        simp only [Session.run, hstep, bind, Except.bind, hr]
      · refine .inr ⟨?_, a :: answers, final,
          run_cons_eq_ok_iff.mpr ⟨a, mid, answers, hstep, hr, rfl⟩, .cons hjoined hanswers⟩
        rcases hfits with hfits | hnone
        · exact .inl hfits
        · cases hopens : x.opensStream with
          | true => exact .inl (hmax hopens)
          | false => exact .inr (List.forall_mem_cons.mpr ⟨hopens, hnone⟩)

/-! ## All that can go wrong -/

/-- Nothing goes wrong in a deed: whoever gives up has been counted and is found in its slot, no
more is cancelled than there is, and the times that are read and slept are words. -/
structure Sound (settings : BrokerSettings) (b : Broker) (d : Deed) : Prop where
  /-- As long as there is a broker, who gives up has been counted and is found. -/
  unsubscribe : ∀ sub, d.action = .unsubscribe sub → b.gateway.dropped = false →
    0 < b.gateway.subscribers ∧ ∃ g, b.gateway.unsubscribe sub = .ok (true, g)
  /-- Cancelling tells how many rules it takes away, and these are no more than there are. -/
  cancel : ∀ target, d.action = .cancelFor target →
    (b.agenda.cancel target).1 + (b.agenda.cancel target).2.rules.length = b.agenda.rules.length
  /-- A driver sleeps no longer than a word, if a tick is no longer, whatever the clock shows. -/
  sleep : settings.maxTick ≤ word64Max → ∀ now, b.sleepFor now ≤ word64Max
  /-- This assumes that the wall clock shows less than 2 ^ 64 milliseconds after the epoch, some 584
  million years; about a clock that shows a time before the epoch it assumes nothing, since that is
  read as the epoch. -/
  clock : d.moment.wall ≤ word64Max → d.moment.now ≤ word64Max

theorem sound_of_mem_journal {settings : BrokerSettings} {b : Broker} {deeds : List Deed}
    {y : Broker × Deed} (hb : Broker.new settings = .ok b) (h : b.Lawful [] deeds)
    (hy : y ∈ b.journal deeds) : Sound settings y.1 y.2 where
  unsubscribe sub hsub hd := by
    have hnew : b.gateway.Serves [] := by
      rw [Broker.new_eq hb]
      exact .new _
    obtain ⟨found, m, action⟩ := y
    obtain ⟨served, hserves, hallows⟩ := h.of_mem_journal hnew hy
    obtain rfl : action = .unsubscribe sub := hsub
    exact hserves.unsubscribe_registered hd hallows
  cancel target _ := y.1.agenda.cancel_length target
  sleep htick now := by
    obtain ⟨before, -, -, he⟩ := Broker.replay_of_mem_journal hy
    have hmax : y.1.maxTick = max settings.maxTick 1 := by
      rw [he, Broker.replay_maxTick, Broker.new_eq hb]
    have hword : y.1.maxTick ≤ word64Max := hmax ▸ Nat.max_le.mpr ⟨htick, by decide⟩
    exact (y.1.agenda.sleepFor_le y.1.maxTick now).trans hword
  clock hwall := by
    have hword : (0 : Int) ≤ word64Max := by decide
    rw [Moment.now]
    omega

/-- A broker is made for any capacities but zero. What is then asked of it succeeds, every
subscription and every handshake that is accepted included, and nothing goes wrong in what is done
for it, unless no mailbox can be made: then the first stream that is opened ends everything. -/
theorem crash_iff {settings : BrokerSettings} {b : Broker} (hb : Broker.new settings = .ok b)
    (supply : IdSupply) (m : Moment) {steps : List Step} (hs : Sensible steps) :
    (∀ crash, (Session.new supply b m).run steps = .error crash ↔
      crash = .mailboxCapacity settings.subscriberCapacity ∧
        Gateway.maxCapacity < settings.subscriberCapacity ∧
          ∃ x ∈ steps, x.opensStream = true) ∧
    ∀ answers final, (Session.new supply b m).run steps = .ok (answers, final) →
      List.Forall₂ (fun x a => x.opensStream = true → a.joined?.isSome = true) steps answers ∧
      (∀ y ∈ (Session.new supply b m).journal steps, Sound settings y.1 y.2) ∧
      (final.broker.gateway.dropped = false →
        final.broker.subscriberCount = final.held.length ∧ ∀ sub ∈ final.held,
          ∃ g, final.broker.gateway.unsubscribe sub = .ok (true, g)) := by
  have hrest : (Session.new supply b m).AtRest := .new hb supply m
  have hcapacity : (Session.new supply b m).broker.gateway.capacity =
      settings.subscriberCapacity := by
    rw [show (Session.new supply b m).broker = b from rfl, Broker.new_eq hb]
    rfl
  have hpositive : 0 < settings.subscriberCapacity := by
    unfold Broker.new at hb
    split at hb
    · cases hb
    · omega
  have halive : (Session.new supply b m).broker.gateway.dropped = true →
      ∀ x ∈ steps, x.outlivesBroker = true := by
    rw [show (Session.new supply b m).broker = b from rfl, Broker.new_eq hb]
    exact fun h => Bool.noConfusion h
  have hcases := hrest.run_cases hs halive (hcapacity ▸ hpositive)
  rw [hcapacity] at hcases
  refine ⟨fun crash => ?_, fun answers final hr => ?_⟩
  · rcases hcases with ⟨hmax, hopens, hr⟩ | ⟨hfits, answers, final, hr, -⟩
    · rw [hr]
      exact ⟨fun he => ⟨(Except.error.inj he).symm, hmax, hopens⟩, fun he => he.1 ▸ rfl⟩
    · rw [hr]
      constructor
      · intro he
        cases he
      · rintro ⟨-, hmax, x, hx, hopens⟩
        rcases hfits with hfits | hnone
        · omega
        · exact absurd ((hnone x hx).symm.trans hopens) Bool.false_ne_true
  · have hleads := (run_leads hrest.streaming hrest.linked hs halive hr).1
    have hserves := (hrest.run hs halive hr).streaming.serves
    refine ⟨?_, fun y hy => sound_of_mem_journal hb hleads.lawful hy, fun hd => ⟨hserves.count hd,
      fun sub hsub => (hserves.unsubscribe_registered hd hsub).2⟩⟩
    rcases hcases with ⟨-, -, hcrash⟩ | ⟨-, answers', final', hr', hanswers⟩
    · rw [hr] at hcrash
      cases hcrash
    · rw [hr] at hr'
      cases hr'
      exact hanswers

/-- A stream opened by a subscriber, one opened by a handshake, and the first of them closed. -/
def streaming : List Step :=
  [.subscribe "jobs", .connect "/ws/events/jobs", .createQueue "jobs", .deleteQueue "jobs",
    .unsubscribe 0]

/-- The largest capacity, and the next one: the broker is made all the same. -/
theorem crash_iff_beyond_largest : Sensible streaming ∧
    (∃ b, Broker.new { subscriberCapacity := 2 ^ 61 } = .ok b ∧
      (Session.new .counting b ⟨0, 0⟩).run streaming = .error (.mailboxCapacity (2 ^ 61))) ∧
    ∃ b answers final, Broker.new { subscriberCapacity := 2 ^ 61 - 1 } = .ok b ∧
      (Session.new .counting b ⟨0, 0⟩).run streaming = .ok (answers, final) ∧
      List.Forall₂ (fun x a => x.opensStream = true → a.joined?.isSome = true) streaming answers ∧
      final.broker.subscriberCount = 1 ∧ final.held.length = 1 := by
  have hs : Sensible streaming := by
    unfold Sensible
    decide
  obtain ⟨b, hb⟩ : ∃ b, Broker.new { subscriberCapacity := 2 ^ 61 } = .ok b := ⟨_, rfl⟩
  obtain ⟨b', hb'⟩ : ∃ b, Broker.new { subscriberCapacity := 2 ^ 61 - 1 } = .ok b := ⟨_, rfl⟩
  have hcrash := ((crash_iff hb .counting ⟨0, 0⟩ hs).1 (.mailboxCapacity (2 ^ 61))).mpr
    ⟨rfl, by decide, .subscribe "jobs", List.mem_cons_self, rfl⟩
  obtain ⟨answers, final, hr, hp⟩ := of_endsWith
    (r := (Session.new .counting b' ⟨0, 0⟩).run streaming)
    (p := fun _ s => s.broker.subscriberCount == 1 && !s.broker.gateway.dropped)
    (by cases hb'; decide +kernel)
  simp only [Bool.and_eq_true, beq_iff_eq, Bool.not_eq_true'] at hp
  obtain ⟨hanswers, -, hcounted⟩ := (crash_iff hb' .counting ⟨0, 0⟩ hs).2 answers final hr
  exact ⟨hs, ⟨b, hb, hcrash⟩, b', answers, final, hb', hr, hanswers, hp.1,
    (hcounted hp.2).1.symm.trans hp.1⟩

end Session

end EventBroker
