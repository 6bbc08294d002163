import EventBroker.Proofs.SessionStreams

/-! # What subscribers see

A caller sees what its subscription sees through the answers to its steps: `received`. Tasks take
nothing away from it (`settle_unheard`). With the balance of a subscription over the deeds since it
was made this gives `live_streams`.
-/
set_option autoImplicit false

namespace EventBroker

/-- The subscriber for which an action receives. -/
def Action.receiver? : Action → Option Subscription
  | .receive s | .receiveUpTo s _ => some s
  | _ => none

theorem handed_eq_nil {sub : Subscription} {b : Broker} {deeds : List Deed}
    (h : ∀ d ∈ deeds, d.action.receiver? ≠ some sub) : handed sub (b.journal deeds) = [] := by
  rw [handed, List.flatMap_eq_nil_iff]
  rintro ⟨b', m, action⟩ hy
  have hr := h _ (Broker.mem_of_mem_journal hy)
  cases action with
  | receive s | receiveUpTo s max => exact if_neg fun he => hr (congrArg some he)
  | _ => rfl

/-- What the answer to a step hands to a subscriber. -/
def receivedBy (k : Nat) : Step × Answer → List DeliveredEvent
  | (.receive k' _, .drained es _) => if k' = k then es else []
  | (.receiveOne k', .received r) => if k' = k then r.toList else []
  | _ => []

/-- What a subscriber receives in the course of some steps. -/
def received (k : Nat) (steps : List Step) (answers : List Answer) : List DeliveredEvent :=
  (steps.zip answers).flatMap (receivedBy k)

/-- The deed of a journal that made a subscription, and the journal since. -/
structure Making (journal : List (Broker × Deed)) (sub : Subscription) where
  before : List (Broker × Deed)
  found : Broker
  moment : Moment
  since : List (Broker × Deed)
  journal_eq : journal = before ++ (found, ⟨moment, .subscribe sub.category⟩) :: since
  made : madeBy? found ⟨moment, .subscribe sub.category⟩ = some sub

namespace Making

variable {journal : List (Broker × Deed)} {sub : Subscription}

/-- What has fired for the subscriber since, when fewer than `n` events were waiting for it. -/
def accepted (k : Making journal sub) (n : Nat) : List Firing :=
  (firings k.since).filter fun f => f.isFor sub && f.findsRoom n sub

/-- What has fired for it since, when as many as `n` events were waiting. -/
def leftOut (k : Making journal sub) (n : Nat) : List Firing :=
  (firings k.since).filter fun f => f.isFor sub && !f.findsRoom n sub

end Making

namespace Session

variable {s s' : Session} {x : Step} {a : Answer} {k : Nat} {sub : Subscription}

/-! ## The list of subscriptions -/

theorem settle_subscriptions (hs : s.settle = .ok s') : s'.subscriptions = s.subscriptions := by
  rw [runSockets_eq hs]
  show s.runDriver.subscriptions = s.subscriptions
  rw [runDriver_eq]

theorem subscription?_congr (h : s'.subscriptions = s.subscriptions) (k : Nat) :
    s'.subscription? k = s.subscription? k := by rw [subscription?, subscription?, h]

/-- A step makes a subscription, which comes last, or gives one up, or changes none. -/
theorem act_subscriptions_cases (ha : s.act x = .ok (a, s')) :
    s'.subscriptions = s.subscriptions ∨
      (∃ category new, x = .subscribe category ∧ a = .subscribed s.subscriptions.length ∧
        s'.subscriptions = s.subscriptions ++ [some new]) ∨
      ∃ k, s'.subscriptions = s.subscriptions.set k none := by
  by_cases hm : x.movesSubscriptions = true
  · cases x with
    | subscribe category =>
      obtain ⟨⟨new, b⟩, -, he⟩ := map_eq_ok_iff.mp ha
      cases he
      exact .inr (.inl ⟨category, new, rfl, rfl, rfl⟩)
    | unsubscribe k' =>
      simp only [act] at ha
      cases hu : s.subscription? k' with
      | none =>
        rw [hu] at ha
        cases ha
        exact .inl rfl
      | some sub' =>
        rw [hu] at ha
        obtain ⟨b, -, he⟩ := map_eq_ok_iff.mp ha
        cases he
        exact .inr (.inr ⟨k', rfl⟩)
    | _ => cases hm
  rw [Bool.not_eq_true] at hm
  by_cases ht : ∃ ms, x = .advance ms
  · obtain ⟨ms, rfl⟩ := ht
    obtain ⟨later, hp, he⟩ := map_eq_ok_iff.mp ha
    cases he
    exact .inl (advance_keeps (fun _ _ => rfl) (fun _ _ => settle_subscriptions) hp)
  by_cases hdrop : x.isDrop = true
  · cases x with
    | dropBroker limit =>
      simp only [act, Except.ok.injEq] at ha
      have he : (s.dropBroker limit).2 = s' := congrArg Prod.snd ha
      refine .inl ?_
      rw [← he]
      simp only [dropBroker, driverEnd]
      split <;> rfl
    | _ => cases hdrop
  · rw [Bool.not_eq_true] at hdrop
    exact .inl ((act_acted (fun ms he => ht ⟨ms, he⟩) hdrop ha).subscriptions hm)

theorem step_subscriptions_cases (hs : s.step x = .ok (a, s')) :
    s'.subscriptions = s.subscriptions ∨
      (∃ category new, x = .subscribe category ∧ a = .subscribed s.subscriptions.length ∧
        s'.subscriptions = s.subscriptions ++ [some new]) ∨
      ∃ k, s'.subscriptions = s.subscriptions.set k none := by
  obtain ⟨acted, ha, ht⟩ := step_eq_ok_iff.mp hs
  rw [settle_subscriptions ht]
  exact act_subscriptions_cases ha

/-- Subscriptions are numbered in the order in which they are made, and none comes back. -/
theorem step_subscription? (hs : s.step x = .ok (a, s')) :
    s.subscriptions.length ≤ s'.subscriptions.length ∧ ∀ k sub, k < s.subscriptions.length →
      s'.subscription? k = some sub → s.subscription? k = some sub := by
  rcases step_subscriptions_cases hs with he | ⟨category, new, -, -, he⟩ | ⟨k', he⟩
  · exact ⟨by rw [he], fun k sub _ hk => subscription?_congr he k ▸ hk⟩
  · refine ⟨by simp [he], fun k sub hk hs => ?_⟩
    rwa [subscription?, he, List.getElem?_append_left hk] at hs
  · refine ⟨by simp [he], fun k sub _ hs => ?_⟩
    by_cases hk : k' = k
    · subst hk
      simp only [subscription?, he, List.getElem?_set, if_true] at hs
      split at hs <;> cases hs
    · rwa [subscription?, he, List.getElem?_set_ne hk] at hs

/-- A new subscriber is one that a step has just made. -/
theorem step_new_subscriber (hs : s.step x = .ok (a, s')) (hk : s.subscriptions.length ≤ k)
    (hk' : k < s'.subscriptions.length) :
    (∃ category, x = .subscribe category) ∧ a = .subscribed k := by
  rcases step_subscriptions_cases hs with he | ⟨category, new, rfl, rfl, he⟩ | ⟨k', he⟩
  · rw [he] at hk'
    omega
  · rw [he, List.length_append, List.length_singleton] at hk'
    rw [show k = s.subscriptions.length by omega]
    exact ⟨⟨category, rfl⟩, rfl⟩
  · rw [he, List.length_set] at hk'
    omega

/-! ## What answers show -/

/-- No two subscribers hold the same subscription. -/
theorem Streaming.eq_of_subscription? (h : s.Streaming) {k' : Nat}
    (hk : s.subscription? k = some sub) (hk' : s.subscription? k' = some sub) : k = k' := by
  have hn := (List.nodup_append.mp h.serves.nodup).1
  rw [subscription?, Option.join_eq_some_iff] at hk hk'
  exact eq_of_nodup_flatMap hn hk hk' (List.mem_singleton_self sub) (List.mem_singleton_self sub)

theorem Streaming.subscription?_inj (h : s.Streaming) {k' : Nat} {sub' : Subscription}
    (hk' : s.subscription? k' = some sub') (hk : s.subscription? k = some sub) :
    sub' = sub ↔ k' = k := by
  constructor
  · rintro rfl
    exact h.eq_of_subscription? hk' hk
  · rintro rfl
    exact Option.some.inj (hk'.symm.trans hk)

/-- Tasks take nothing away from a caller. -/
theorem settle_unheard (h : s.Streaming) (hk : s.subscription? k = some sub) :
    handed sub (s.broker.journal s.taskDeeds) = [] := by
  refine handed_eq_nil fun d hd hr => ?_
  simp only [taskDeeds, List.mem_append] at hd
  rcases hd with (hd | hd) | hd
  · have hkind := driverDeeds_kind hd
    cases ha : d.action with
    | receive | receiveUpTo => rw [ha] at hkind; rcases hkind with hkind | hkind <;> cases hkind
    | _ => rw [ha] at hr; cases hr
  · obtain ⟨serial, rfl⟩ := reapersDeeds_kind hd
    cases hr
  · obtain ⟨socket, hsocket, sub', hsub, rfl | rfl⟩ := socketsDeeds_kind hd
    · cases hr
      refine (List.nodup_append.mp h.serves.nodup).2.2 sub ?_ sub ?_ rfl
      · exact List.mem_flatMap.mpr ⟨some sub,
          List.mem_of_getElem? (Option.join_eq_some_iff.mp hk), List.mem_singleton_self sub⟩
      · rw [List.mem_flatMap]
        exact ⟨socket, hsocket, by rw [hsub]; exact List.mem_singleton_self sub⟩
    · cases hr

theorem pass_unheard {n : Nat} (h : s.Streaming) (hl : s.broker.Linked)
    (hk : s.subscription? k = some sub) :
    handed sub (s.broker.journal ((passBeats n s).flatMap taskDeeds)) = [] := by
  induction n generalizing s with
  | zero => rfl
  | succ n ih =>
    have hlater : Streaming { s with moment := s.moment.after 1 } := ⟨h.serves, h.ended⟩
    have hfirst := settle_unheard (s := { s with moment := s.moment.after 1 }) hlater hk
    simp only [passBeats]
    cases hs : settle { s with moment := s.moment.after 1 } with
    | error e =>
      rw [List.flatMap_cons, List.flatMap_nil, List.append_nil]
      exact hfirst
    | ok mid =>
      obtain ⟨hleads, hmid⟩ := settle_leads hlater hl hs
      have hb : mid.broker =
          s.broker.replay (taskDeeds { s with moment := s.moment.after 1 }) := hleads.broker
      rw [List.flatMap_cons, Broker.journal_append, handed_append, ← hb]
      rw [show handed sub (s.broker.journal (taskDeeds { s with moment := s.moment.after 1 })) = []
        from hfirst, List.nil_append]
      refine ih hmid (hb ▸ hl.replay _) ?_
      rw [subscription?_congr
        (settle_subscriptions (s := { s with moment := s.moment.after 1 }) hs) k]
      exact hk

/-- Few steps receive anything. -/
theorem receiver?_of_mem_callerDeeds (hr : ∀ k' max, x ≠ .receive k' max)
    (hr' : ∀ k', x ≠ .receiveOne k') {d : Deed} (hd : d ∈ s.callerDeeds x) :
    d.action.receiver? = none := by
  cases x with
  | receive k' max => exact absurd rfl (hr k' max)
  | receiveOne k' => exact absurd rfl (hr' k')
  | subscribe | dropBroker =>
    rw [List.mem_singleton.mp hd]
    rfl
  | unsubscribe k' =>
    obtain ⟨sub, -, rfl⟩ := List.mem_map.mp hd
    rfl
  | connect path =>
    obtain ⟨req, -, hd⟩ := List.mem_flatMap.mp hd
    rcases apiDeeds_kind hd with hk | ⟨-, category, hk⟩
    · cases ha : d.action with
      | receive | receiveUpTo => rw [ha] at hk; cases hk
      | _ => rfl
    · rw [hk]
      rfl
  | send index message =>
    cases message with
    | ping text =>
      simp only [callerDeeds] at hd
      split at hd
      · cases hd
      · obtain ⟨socket, -, hd⟩ := List.mem_flatMap.mp hd
        obtain ⟨sub, -, rfl⟩ := endDeeds_eq hd
        rfl
    | text | binary => cases hd
  | closeSocket index abrupt =>
    obtain ⟨socket, -, hd⟩ := List.mem_flatMap.mp hd
    obtain ⟨sub, -, rfl⟩ := endDeeds_eq hd
    rfl
  | _ =>
    cases ha : d.action with
    | receive | receiveUpTo =>
      have hk := callerDeeds_kind rfl hd
      rw [ha] at hk
      rcases hk with hk | ⟨-, hk⟩ | ⟨hk, -⟩ <;> cases hk
    | _ => rfl

/-- What a step hands to a caller is in its answer. -/
theorem act_heard (h : s.Streaming) (ha : s.act x = .ok (a, s'))
    (hk : s.subscription? k = some sub) :
    handed sub (s.broker.journal (s.callerDeeds x)) = receivedBy k (x, a) := by
  by_cases hr : ∃ k' max, x = .receive k' max
  · obtain ⟨k', max, rfl⟩ := hr
    cases hu : s.subscription? k' with
    | none =>
      simp only [act, hu, Except.ok.injEq, Prod.mk.injEq] at ha
      rw [← ha.1]
      simp only [callerDeeds, hu]
      rfl
    | some sub' =>
      simp only [act, hu, Session.receive, Except.ok.injEq, Prod.mk.injEq] at ha
      rw [← ha.1]
      simp only [callerDeeds, hu, Option.toList_some, List.map_cons, List.map_nil, receivedBy,
        Broker.journal, handed, List.flatMap_cons, List.flatMap_nil, List.append_nil, handedBy,
        h.subscription?_inj hu hk]
  by_cases hr' : ∃ k', x = .receiveOne k'
  · obtain ⟨k', rfl⟩ := hr'
    cases hu : s.subscription? k' with
    | none =>
      simp only [act, hu, Except.ok.injEq, Prod.mk.injEq] at ha
      rw [← ha.1]
      simp only [callerDeeds, hu]
      rfl
    | some sub' =>
      simp only [act, hu, Except.ok.injEq, Prod.mk.injEq] at ha
      rw [← ha.1]
      simp only [callerDeeds, hu, Option.toList_some, List.map_cons, List.map_nil, receivedBy,
        Broker.journal, handed, List.flatMap_cons, List.flatMap_nil, List.append_nil, handedBy,
        h.subscription?_inj hu hk]
  -- no other step receives anything
  have hnone : receivedBy k (x, a) = [] := by
    cases x with
    | receive k' max => exact absurd ⟨k', max, rfl⟩ hr
    | receiveOne k' => exact absurd ⟨k', rfl⟩ hr'
    | _ => rfl
  rw [hnone]
  refine handed_eq_nil fun d hd => ?_
  rw [receiver?_of_mem_callerDeeds (fun k' max he => hr ⟨k', max, he⟩)
    (fun k' he => hr' ⟨k', he⟩) hd]
  exact (Option.some_ne_none sub).symm

theorem step_heard (h : s.Streaming) (hl : s.broker.Linked)
    (hx : s.broker.gateway.dropped = true → x.outlivesBroker = true)
    (hs : s.step x = .ok (a, s')) (hk : s.subscription? k = some sub)
    (hk' : s'.subscription? k = some sub) :
    handed sub (s.broker.journal (s.stepDeeds x)) = receivedBy k (x, a) := by
  obtain ⟨acted, ha, ht⟩ := step_eq_ok_iff.mp hs
  obtain ⟨hleads, hacted⟩ := acted_leads h hl hx ha
  have hlater : acted.subscription? k = some sub :=
    (subscription?_congr (settle_subscriptions ht) k).symm.trans hk'
  have hinner : handed sub ((s.broker.replay (s.callerDeeds x)).journal
      ((s.innerBeats x).flatMap taskDeeds)) = [] := by
    by_cases hm : ∃ ms, x = .advance ms
    · obtain ⟨ms, rfl⟩ := hm
      simp only [innerBeats]
      split
      · exact pass_unheard h hl hk
      · rfl
    · have hnil : s.innerBeats x = [] := by
        cases x with
        | advance ms => exact absurd ⟨ms, rfl⟩ hm
        | _ => rfl
      rw [hnil]
      rfl
  have hdeeds : s.stepDeeds x =
      s.callerDeeds x ++ (s.innerBeats x).flatMap taskDeeds ++ acted.taskDeeds := by
    simp [stepDeeds, beats, ha]
  rw [hdeeds, Broker.journal_append, handed_append, ← hleads.broker, settle_unheard hacted hlater,
    List.append_nil, Broker.journal_append, handed_append, hinner, List.append_nil]
  exact act_heard h ha hk

/-- What a run hands to a caller is in its answers. -/
theorem run_heard {steps : List Step} {answers : List Answer} (h : s.Streaming)
    (hl : s.broker.Linked) (hs : Sensible steps)
    (hx : s.broker.gateway.dropped = true → ∀ x ∈ steps, x.outlivesBroker = true)
    (hr : s.run steps = .ok (answers, s')) (hk : k < s.subscriptions.length)
    (hk' : s'.subscription? k = some sub) : s.subscription? k = some sub ∧
      handed sub (s.journal steps) = received k steps answers := by
  induction steps generalizing s answers with
  | nil =>
    cases hr
    exact ⟨hk', rfl⟩
  | cons x rest ih =>
    obtain ⟨a, mid, later, hstep, htail, rfl⟩ := run_cons_eq_ok_iff.mp hr
    have hout := fun hd => hx hd x List.mem_cons_self
    obtain ⟨hleads, hmid⟩ := step_leads h hl hout hstep
    obtain ⟨hrest, hlater⟩ := hs.step h hx hleads
    obtain ⟨hlen, hback⟩ := step_subscription? hstep
    obtain ⟨hkept, hheard⟩ :=
      ih hmid (linked_step hl hstep) hrest hlater htail (Nat.lt_of_lt_of_le hk hlen)
    have hk₀ := hback k sub hk hkept
    refine ⟨hk₀, ?_⟩
    rw [journal_cons hl hstep, handed_append, step_heard h hl hout hstep hk₀ hkept, hheard,
      received, received, List.zip_cons_cons, List.flatMap_cons]

/-! ## Making subscribers -/

/-- The step of a run that made a subscriber. -/
structure Joining (s : Session) (steps : List Step) (answers : List Answer) (k : Nat) where
  before : List Step
  category : String
  after : List Step
  earlier : List Answer
  later : List Answer
  prior : Session
  steps_eq : steps = before ++ .subscribe category :: after
  answers_eq : answers = earlier ++ .subscribed k :: later
  run_before : s.run before = .ok (earlier, prior)

theorem exists_joining {steps : List Step} {answers : List Answer}
    (hr : s.run steps = .ok (answers, s')) (hk : s.subscriptions.length ≤ k)
    (hk' : k < s'.subscriptions.length) : Nonempty (Joining s steps answers k) := by
  induction steps generalizing s answers with
  | nil =>
    cases hr
    omega
  | cons x rest ih =>
    obtain ⟨a, mid, later, hstep, htail, rfl⟩ := run_cons_eq_ok_iff.mp hr
    by_cases hmid : k < mid.subscriptions.length
    · obtain ⟨⟨category, rfl⟩, rfl⟩ := step_new_subscriber hstep hk hmid
      exact ⟨[], category, rest, [], later, s, rfl, rfl, rfl⟩
    · obtain ⟨j⟩ := ih htail (Nat.le_of_not_lt hmid)
      refine ⟨x :: j.before, j.category, j.after, a :: j.earlier, j.later, j.prior, ?_, ?_, ?_⟩
      · exact congrArg (x :: ·) j.steps_eq
      · exact congrArg (a :: ·) j.answers_eq
      · exact run_cons_eq_ok_iff.mpr ⟨a, mid, j.earlier, hstep, j.run_before, rfl⟩

/-- What may follow some steps may follow them in the session to which they lead. -/
theorem Sensible.run {steps later : List Step} {answers : List Answer}
    (hs : Sensible (steps ++ later)) (h : s.Streaming) (hl : s.broker.Linked)
    (hx : s.broker.gateway.dropped = true → ∀ y ∈ steps ++ later, y.outlivesBroker = true)
    (hr : s.run steps = .ok (answers, s')) : Sensible later ∧
      (s'.broker.gateway.dropped = true → ∀ y ∈ later, y.outlivesBroker = true) := by
  induction steps generalizing s answers with
  | nil =>
    cases hr
    exact ⟨hs, hx⟩
  | cons x rest ih =>
    obtain ⟨a, mid, others, hstep, htail, -⟩ := run_cons_eq_ok_iff.mp hr
    obtain ⟨hleads, hmid⟩ := step_leads h hl (fun hd => hx hd x List.mem_cons_self) hstep
    obtain ⟨hrest, hlater⟩ := Sensible.step hs h hx hleads
    exact ih hrest hmid (linked_step hl hstep) hlater htail

/-- The step that made a subscriber is the deed that made its subscription, and what is handed to
the subscription from then on is in the answers to the steps that follow. -/
theorem Joining.exists_making {steps : List Step} {answers : List Answer}
    (j : Joining s steps answers k) (h : s.Streaming) (hl : s.broker.Linked)
    (hs : Sensible steps)
    (hx : s.broker.gateway.dropped = true → ∀ x ∈ steps, x.outlivesBroker = true)
    (hr : s.run steps = .ok (answers, s')) (hk : s'.subscription? k = some sub) :
    sub.category = j.category ∧ ∃ making : Making (s.journal steps) sub,
      making.before = s.journal j.before ∧
        handed sub making.since = received k j.after j.later := by
  obtain ⟨before, category, after, earlier, later, prior, rfl, rfl, hbefore⟩ := j
  obtain ⟨earlier', rest, prior', hbefore', htail, hanswers⟩ := run_append_eq_ok_iff.mp hr
  rw [hbefore] at hbefore'
  cases hbefore'
  obtain ⟨a, joined, later', hstep, hafter, rfl⟩ := run_cons_eq_ok_iff.mp htail
  obtain ⟨rfl, rfl⟩ := List.cons.inj (List.append_cancel_left hanswers)
  obtain ⟨acted, ha, ht⟩ := step_eq_ok_iff.mp hstep
  -- the session before the step, the one after, and the one after the tasks
  have hprior := (run_leads h hl (List.pairwise_append.mp hs).1
    (fun hd x hm => hx hd x (List.mem_append_left _ hm)) hbefore).2
  have hlprior := linked_run hl hbefore
  obtain ⟨hs', hx'⟩ := hs.run h hl hx hbefore
  have hout := fun hd => hx' hd _ List.mem_cons_self
  obtain ⟨-, hacted⟩ := acted_leads hprior hlprior hout ha
  obtain ⟨hleads, hjoined⟩ := step_leads hprior hlprior hout hstep
  obtain ⟨hs'', hx''⟩ := hs'.step hprior hx' hleads
  -- the subscription that is made
  obtain ⟨⟨new, b⟩, hsub, he⟩ := map_eq_ok_iff.mp ha
  obtain ⟨hk', hacted_eq⟩ := Prod.mk.inj he
  simp only [Answer.subscribed.injEq] at hk'
  subst hk'
  have hsubs : acted.subscriptions = prior.subscriptions ++ [some new] := by rw [← hacted_eq]
  have hsettled := settle_subscriptions ht
  have hlt : prior.subscriptions.length < joined.subscriptions.length := by
    rw [hsettled, hsubs]
    simp
  obtain ⟨hkjoined, hheard⟩ :=
    run_heard hjoined (linked_step hlprior hstep) hs'' hx'' hafter hlt hk
  have hkacted : acted.subscription? prior.subscriptions.length = some sub :=
    (subscription?_congr hsettled _).symm.trans hkjoined
  have hnew : new = sub := by
    simpa [subscription?, hsubs] using hkacted
  subst hnew
  obtain ⟨⟨_, gateway⟩, hgateway, hnew⟩ := map_eq_ok_iff.mp hsub
  cases hnew
  have hcategory : new.category = category := by rw [(Gateway.subscribe_spec hgateway).1]
  subst hcategory
  refine ⟨rfl, ⟨s.journal before, prior.broker, prior.moment,
    acted.broker.journal acted.taskDeeds ++ joined.journal after, ?_, ?_⟩, rfl, ?_⟩
  · have hdeeds : prior.stepDeeds (.subscribe new.category) =
        ⟨prior.moment, .subscribe new.category⟩ :: acted.taskDeeds := by
      simp [stepDeeds, callerDeeds, beats, innerBeats, ha]
    have hb : acted.broker = prior.broker.perform ⟨prior.moment, .subscribe new.category⟩ :=
      act_replays hlprior (fun _ he => Step.noConfusion he) ha
    rw [journal_append hl hbefore, journal_cons hlprior hstep, hdeeds, Broker.journal, ← hb]
    rfl
  · simp only [madeBy?, hsub]
    rfl
  · show handed new (acted.broker.journal acted.taskDeeds ++ joined.journal after) = _
    rw [handed_append, settle_unheard hacted hkacted, List.nil_append, hheard]

/-! ## Live streams -/

theorem lt_of_subscription? (h : s.subscription? k = some sub) : k < s.subscriptions.length := by
  obtain ⟨hlt, -⟩ := List.getElem?_eq_some_iff.mp (Option.join_eq_some_iff.mp h)
  exact hlt

namespace Leads

variable {deeds : List Deed}

/-- A subscription that is held in the end, and none was held at the start, was made. -/
theorem exists_making (h : Leads s deeds s') (hs : s.held = []) (hsub : sub ∈ s'.held) :
    Nonempty (Making (s.broker.journal deeds) sub) := by
  have hlive := h.held.mem_iff.mpr hsub
  rw [hs] at hlive
  obtain ⟨before, moment, after, rfl, hmade⟩ :=
    Broker.Lawful.exists_making hlive List.not_mem_nil
  refine ⟨s.broker.journal before, s.broker.replay before, moment,
    ((s.broker.replay before).perform ⟨moment, .subscribe sub.category⟩).journal after, ?_, hmade⟩
  rw [Broker.journal_append]
  rfl

/-- What a subscription has got and missed since it was made. -/
theorem making (h : Leads s deeds s') (hs : s.broker.gateway.Serves s.held)
    (hsub : sub ∈ s'.held) (making : Making (s.broker.journal deeds) sub) :
    handed sub making.since ++ (s.broker.replay deeds).gateway.waiting sub =
        (making.accepted s.broker.gateway.capacity).map (·.event) ∧
      (firings (s.broker.journal deeds)).filter (·.reaches s.broker.gateway.capacity sub) =
        making.accepted s.broker.gateway.capacity ∧
      (firings (s.broker.journal deeds)).filter (·.misses s.broker.gateway.capacity sub) =
        making.leftOut s.broker.gateway.capacity := by
  have hlive := h.held.mem_iff.mpr hsub
  have hlawful := h.lawful
  obtain ⟨before, found, moment, since, hj, hmade⟩ := making
  obtain ⟨earlier, rest, rfl, rfl, hrest⟩ := Broker.journal_eq_append hj
  cases rest with
  | nil => cases hrest
  | cons d after =>
    obtain ⟨hfirst, rfl⟩ := List.cons.inj hrest
    obtain ⟨rfl, rfl⟩ := Prod.mk.inj hfirst
    exact ⟨hlawful.since_making hs hmade hlive, hlawful.filter_registers hs hmade hlive _,
      hlawful.filter_registers hs hmade hlive _⟩

end Leads

/-- Subscriptions to categories, in every session of a broker. What a subscription that is still
held has received, followed by what waits for it, are the events of the rules that have fired since
it was made with its category as their effective one and fewer than `n` events waiting for it: in
firing order, each rule at most once, nothing from before, and whatever channels there are. A caller
gets what its subscription receives in the answers to its own steps. What the broker counts as
pushed is what all subscriptions ever made have got together, and what it counts as dropped is what
found no room with them. -/
theorem live_streams {settings : BrokerSettings} {b : Broker}
    (hb : Broker.new settings = .ok b) (supply : IdSupply) (m : Moment) {steps : List Step}
    (hs : Sensible steps) {answers : List Answer} {final : Session}
    (hr : (Session.new supply b m).run steps = .ok (answers, final)) :
    let s := Session.new supply b m
    let log := s.journal steps
    let n := settings.subscriberCapacity
    (∀ sub ∈ final.held, Nonempty (Making log sub) ∧ ∀ making : Making log sub,
      handed sub making.since ++ final.broker.gateway.waiting sub =
        (making.accepted n).map (·.event) ∧
      (firings log).filter (·.reaches n sub) = making.accepted n ∧
      (firings log).filter (·.misses n sub) = making.leftOut n) ∧
    (∀ k sub, final.subscription? k = some sub → Nonempty (Joining s steps answers k) ∧
      ∀ j : Joining s steps answers k, sub.category = j.category ∧
        ∃ making : Making log sub, making.before = s.journal j.before ∧
          received k j.after j.later ++ final.broker.gateway.waiting sub =
            (making.accepted n).map (·.event)) ∧
    ((firings log).map (·.rule.order)).Nodup ∧
    final.broker.metrics.streamPushed =
      ((made log).map fun sub => (firings log).countP (·.reaches n sub)).sum ∧
    final.broker.metrics.streamDropped =
      ((made log).map fun sub => (firings log).countP (·.misses n sub)).sum := by
  intro s log n
  have hstreaming : s.Streaming := .new hb supply m
  have hlinked : s.broker.Linked := Broker.Linked.new hb
  have halive : s.broker.gateway.dropped = true → ∀ x ∈ steps, x.outlivesBroker = true := by
    rw [show s.broker = b from rfl, Broker.new_eq hb]
    exact fun h => Bool.noConfusion h
  have hleads := (run_leads hstreaming hlinked hs halive hr).1
  have hn : s.broker.gateway.capacity = n := by
    rw [show s.broker = b from rfl, Broker.new_eq hb]
    rfl
  have hheld : ∀ sub ∈ final.held, ∀ making : Making log sub,
      handed sub making.since ++ final.broker.gateway.waiting sub =
        (making.accepted n).map (·.event) ∧
      (firings log).filter (·.reaches n sub) = making.accepted n ∧
      (firings log).filter (·.misses n sub) = making.leftOut n := fun sub hsub making => by
    rw [← hn, hleads.broker]
    exact hleads.making hstreaming.serves hsub making
  refine ⟨fun sub hsub => ⟨hleads.exists_making rfl hsub, hheld sub hsub⟩, fun k sub hk => ?_, ?_,
    ?_⟩
  · refine ⟨exists_joining hr (Nat.zero_le k) (lt_of_subscription? hk), fun j => ?_⟩
    obtain ⟨hcategory, making, hbefore, hreceived⟩ :=
      j.exists_making hstreaming hlinked hs halive hr hk
    refine ⟨hcategory, making, hbefore, ?_⟩
    rw [← hreceived]
    exact (hheld sub (mem_held_of_subscription? hk) making).1
  · have hn := hleads.whole.orders_nodup hlinked hleads.lawful hstreaming.serves (Spent.new hb)
    rw [List.nil_append] at hn
    exact hn
  · have hcounts := hleads.lawful.totals hstreaming.serves
      (hleads.lawful.made_nodup hstreaming.serves)
      fun sub h => h.resolve_left List.not_mem_nil
    rw [← hleads.broker, hn] at hcounts
    have hzero : s.broker.metrics.streamPushed = 0 ∧ s.broker.metrics.streamDropped = 0 := by
      rw [show s.broker = b from rfl, Broker.new_eq hb]
      exact ⟨rfl, rfl⟩
    rw [hzero.1, hzero.2, Nat.zero_add, Nat.zero_add] at hcounts
    exact hcounts

/-- A subscriber with room for one event gets the first, misses the second, is not meant by the
third, and gets the fourth when the broker is gone. -/
def listening : List Step :=
  [.createQueue "jobs", .subscribe "jobs",
    .submit ⟨[65], none, [⟨"jobs", 0, none⟩]⟩, .fire none,
    .submit ⟨[66], none, [⟨"jobs", 0, none⟩]⟩, .fire none, .receive 0 none,
    .submit ⟨[67], some "mail", [⟨"jobs", 0, none⟩]⟩, .fire none,
    .submit ⟨[68], none, [⟨"jobs", 0, none⟩]⟩, .fire none, .dropBroker 0, .receiveOne 0]

theorem live_streams_once : ∃ b answers final sub,
    Broker.new { subscriberCapacity := 1 } = .ok b ∧ Sensible listening ∧
      (Session.new .counting b ⟨0, 0⟩).run listening = .ok (answers, final) ∧
      final.broker.metrics.streamPushed = 2 ∧ final.broker.metrics.streamDropped = 1 ∧
      final.subscription? 0 = some sub ∧ sub.category = "jobs" ∧
      (∃ j : Joining (Session.new .counting b ⟨0, 0⟩) listening answers 0,
        ∃ making : Making ((Session.new .counting b ⟨0, 0⟩).journal listening) sub,
          received 0 j.after j.later ++ final.broker.gateway.waiting sub =
            (making.accepted 1).map (·.event)) ∧
      ((made ((Session.new .counting b ⟨0, 0⟩).journal listening)).map fun sub =>
        (firings ((Session.new .counting b ⟨0, 0⟩).journal listening)).countP
          (·.reaches 1 sub)).sum = 2 := by
  obtain ⟨b, hb⟩ : ∃ b, Broker.new { subscriberCapacity := 1 } = .ok b := ⟨_, rfl⟩
  have hs : Sensible listening := by
    unfold Sensible
    decide
  obtain ⟨answers, final, hr, hp⟩ := of_endsWith
    (r := (Session.new .counting b ⟨0, 0⟩).run listening)
    (p := fun _ s => s.broker.metrics.streamPushed == 2 && s.broker.metrics.streamDropped == 1 &&
      (s.subscription? 0).any (·.category == "jobs")) (by cases hb; decide +kernel)
  simp only [Bool.and_eq_true, beq_iff_eq] at hp
  obtain ⟨⟨hpushed, hdropped⟩, hsub⟩ := hp
  obtain ⟨sub, hk, hcategory⟩ := (Option.any_eq_true _ _).mp hsub
  obtain ⟨-, hcaller, -, hsum, -⟩ := live_streams hb .counting ⟨0, 0⟩ hs hr
  obtain ⟨⟨j⟩, hjoining⟩ := hcaller 0 sub hk
  obtain ⟨-, making, -, hreceived⟩ := hjoining j
  exact ⟨b, answers, final, sub, hb, hs, hr, hpushed, hdropped, hk, beq_iff_eq.mp hcategory,
    ⟨j, making, hreceived⟩, hsum.symm.trans hpushed⟩

end Session

end EventBroker
