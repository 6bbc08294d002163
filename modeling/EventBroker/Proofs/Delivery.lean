import EventBroker.Proofs.Identifiers
import EventBroker.Proofs.Rules

/-! # What a channel delivers

Over any run of steps on the broker itself, what was taken out of a channel and what it still holds
is, in this order, what fired after its creation into the incarnations that its names meant then,
less what found it full (`channel_delivers`).
-/
set_option autoImplicit false

namespace EventBroker

/-- The step of a run that created a channel, with what was there before it and what came after. -/
structure Creation (s : Session) (steps : List Step) (answers : List Answer) (final : Session)
    (id : ChannelId) where
  before : List Step
  queues : List String
  options : BufferOptions
  after : List Step
  earlier : List Answer
  later : List Answer
  prior : Session
  made : Session
  steps_eq : steps = before ++ .createChannel queues options :: after
  answers_eq : answers = earlier ++ .channelCreated id :: later
  run_before : s.run before = .ok (earlier, prior)
  step_create : prior.step (.createChannel queues options) = .ok (.channelCreated id, made)
  run_after : made.run after = .ok (later, final)

/-- The events that a step takes out of a channel, going by its answer. -/
def taken (id : ChannelId) : Step × Answer → List DeliveredEvent
  | (.dequeue text, .events es) => if ChannelId.parse? text = some id then es else []
  | _ => []

namespace Creation

variable {s : Session} {steps : List Step} {answers : List Answer} {final : Session}
  {id : ChannelId}

/-- What has fired since. -/
def fired (k : Creation s steps answers final id) : List Firing := firings (k.made.journal k.after)

/-- What has been taken out of the channel since. -/
def taken (k : Creation s steps answers final id) : List DeliveredEvent :=
  (k.after.zip k.later).flatMap (EventBroker.taken id)

end Creation

namespace Session

/-! ## What is handed out -/

theorem flatMap_handedOut_eq_nil (id : ChannelId) {past : List (Broker × Deed)}
    (h : ∀ y ∈ past, ∀ id', y.2.action ≠ .dequeue id') :
    past.flatMap (Broker.handedOut id) = [] := by
  rw [List.flatMap_eq_nil_iff]
  rintro ⟨b, m, action⟩ hy
  cases action with
  | dequeue id' => exact absurd rfl (h _ hy id')
  | _ => rfl

theorem taken_of_act {s s' : Session} {x : Step} {a : Answer} (hx : x.isFacade = true)
    (ha : s.act x = .ok (a, s')) (id : ChannelId) :
    (s.broker.journal (s.callerDeeds x)).flatMap (Broker.handedOut id) = taken id (x, a) := by
  by_cases hd : ∃ text, x = .dequeue text
  · obtain ⟨text, rfl⟩ := hd
    simp only [act, onChannel, Except.ok.injEq] at ha
    simp only [callerDeeds]
    cases hp : ChannelId.parse? text with
    | none =>
      rw [hp] at ha
      cases ha
      rfl
    | some id' =>
      rw [hp] at ha
      simp only [Broker.dequeue] at ha
      by_cases he : id' = id
      · subst he
        cases hc : s.broker.channel? id' with
        | none =>
          rw [hc] at ha
          cases ha
          simp [Broker.journal, Broker.handedOut, Broker.held, hc, taken]
        | some c =>
          rw [hc] at ha
          cases ha
          simp [Broker.journal, Broker.handedOut, Broker.held, hc, taken, hp]
      · have ht : taken id (.dequeue text, a) = [] := by
          cases a with
          | events es => simp [taken, hp, he]
          | _ => rfl
        rw [ht]
        simp [Broker.journal, Broker.handedOut, he]
  · have ht : taken id (x, a) = [] := by
      cases x with
      | dequeue text => exact absurd ⟨text, rfl⟩ hd
      | _ => rfl
    rw [ht]
    apply flatMap_handedOut_eq_nil
    rintro ⟨b, m, action⟩ hy id' he
    cases he
    rcases s.mem_callerDeeds_cases hx (Broker.mem_of_mem_journal hy) with hp | hp | ⟨_, _, -, hp⟩ |
      ⟨text, _, rfl, -⟩
    · cases hp
    · cases hp
    · cases hp
    · exact hd ⟨text, rfl⟩

namespace Quiet

variable {s s' : Session} {steps : List Step} {answers : List Answer}

theorem taken_run (hq : s.Quiet) (h : s.broker.Linked) (hf : ∀ x ∈ steps, x.isFacade = true)
    (hr : s.run steps = .ok (answers, s')) (id : ChannelId) :
    (s.journal steps).flatMap (Broker.handedOut id) = (steps.zip answers).flatMap (taken id) := by
  induction steps generalizing s answers with
  | nil =>
    cases hr
    rfl
  | cons x rest ih =>
    rw [List.forall_mem_cons] at hf
    obtain ⟨a, mid, later, hx, hr', rfl⟩ := run_cons_eq_ok_iff.mp hr
    have hb := step_replays h hx
    rw [hq.stepDeeds hf.1 hx] at hb
    have hj : s.journal (x :: rest) = s.broker.journal (s.callerDeeds x) ++ mid.journal rest := by
      simp only [journal, deeds, hx, hq.stepDeeds hf.1 hx, Broker.journal_append, ← hb]
    rw [hj, List.flatMap_append, taken_of_act hf.1 ((hq.step_iff hf.1).mp hx),
      ih (hq.step hf.1 hx).1 (linked_step h hx) hf.2 hr']
    rfl

/-! ## Creation -/

/-- What a step that creates a channel does. -/
theorem created (hq : s.Quiet) {queues : List String} {options : BufferOptions} {id : ChannelId}
    (hs : s.step (.createChannel queues options) = .ok (.channelCreated id, s')) :
    ∃ targets ts, s.broker.registry.resolve queues = .ok targets ∧ (∀ t, t ∈ ts ↔ t ∈ targets) ∧
      s'.broker.channels = s.broker.channels ++
        [{ Channel.new s.broker.nextChannel id queues options s.broker.channelCapacity s.moment.now
            with sources := some ts }] ∧
      s'.broker.nextChannel = s.broker.nextChannel + 1 := by
  have ha := (hq.step_iff rfl).mp hs
  simp only [Session.act, onBroker, Except.ok.injEq] at ha
  rcases s.broker.createChannel_cases s.fresh.channel queues options s.moment with ⟨e, he⟩ |
    ⟨targets, ts, hr, -, hm, he⟩
  · rw [he] at ha
    cases ha
  · rw [he] at ha
    cases ha
    exact ⟨targets, ts, hr, hm, rfl, rfl⟩

/-- Serial numbers of channels are given by steps that create one. -/
theorem nextChannel_step (hq : s.Quiet) (h : s.broker.Linked) {x : Step} {a : Answer}
    (hx : x.isFacade = true) (hs : s.step x = .ok (a, s')) :
    s'.broker.nextChannel = s.broker.nextChannel ∨
      s'.broker.nextChannel = s.broker.nextChannel + 1 ∧ ∃ queues options id,
        x = .createChannel queues options ∧ a = .channelCreated id := by
  by_cases hc : ∃ queues options, x = .createChannel queues options
  · obtain ⟨queues, options, rfl⟩ := hc
    have ha := (hq.step_iff hx).mp hs
    simp only [Session.act, onBroker, Except.ok.injEq] at ha
    rcases s.broker.createChannel_cases s.fresh.channel queues options s.moment with ⟨e, he⟩ |
      ⟨_, _, -, -, -, he⟩
    · rw [he] at ha
      cases ha
      exact .inl rfl
    · rw [he] at ha
      cases ha
      exact .inr ⟨rfl, queues, options, _, rfl, rfl⟩
  · left
    have hb := step_replays h hs
    rw [hq.stepDeeds hx hs] at hb
    have hn : ∀ (deeds : List Deed) (b : Broker),
        (∀ d ∈ deeds, d.action.createsChannel = false) →
        (b.replay deeds).nextChannel = b.nextChannel := by
      intro deeds
      induction deeds with
      | nil => exact fun _ _ => rfl
      | cons d rest ih =>
        intro b hd
        rw [List.forall_mem_cons] at hd
        rw [Broker.replay_cons, ih _ hd.2, (Broker.perform_framed b d).nextChannel hd.1]
    rw [hb]
    apply hn
    rintro ⟨m, action⟩ hm
    cases action with
    | createChannel id queues options =>
      rcases s.mem_callerDeeds_cases hx hm with hp | hp | ⟨names, opts, rfl, -⟩ | ⟨_, _, -, hp⟩
      · cases hp
      · cases hp
      · exact absurd ⟨names, opts, rfl⟩ hc
      · cases hp
    | _ => rfl

/-- A serial number that is given in the course of a run is given by one of its steps. -/
theorem exists_creation (hq : s.Quiet) (h : s.broker.Linked) (hf : ∀ x ∈ steps, x.isFacade = true)
    (hr : s.run steps = .ok (answers, s')) {n : Nat} (hge : s.broker.nextChannel ≤ n)
    (hlt : n < s'.broker.nextChannel) :
    ∃ id, ∃ k : Creation s steps answers s' id, k.prior.broker.nextChannel = n := by
  induction steps generalizing s answers with
  | nil =>
    cases hr
    omega
  | cons x rest ih =>
    rw [List.forall_mem_cons] at hf
    obtain ⟨a, mid, later, hx, hr', rfl⟩ := run_cons_eq_ok_iff.mp hr
    -- either the number is still to be given after this step, or this step gives it
    have hstep := hq.nextChannel_step h hf.1 hx
    by_cases hmid : mid.broker.nextChannel ≤ n
    · obtain ⟨id, k, hn⟩ := ih (hq.step hf.1 hx).1 (linked_step h hx) hf.2 hr' hmid
      exact ⟨id, { k with
        before := x :: k.before
        earlier := a :: k.earlier
        steps_eq := congrArg (x :: ·) k.steps_eq
        answers_eq := congrArg (a :: ·) k.answers_eq
        run_before := run_cons_eq_ok_iff.mpr ⟨a, mid, k.earlier, hx, k.run_before, rfl⟩ }, hn⟩
    · rcases hstep with he | ⟨he, queues, options, id, rfl, rfl⟩
      · omega
      · exact ⟨id, ⟨[], queues, options, rest, [], later, s, mid, rfl, rfl, rfl, hx, hr'⟩,
          by simp only; omega⟩

/-- The second of two dequeues in a row answers nothing. -/
theorem dequeue_twice (hq : s.Quiet) (h : s.broker.Linked) {ident : Nat → ChannelId}
    (hn : s.broker.Identified ident) {c : Channel} (hc : c ∈ s.broker.channels) {text : String}
    (ht : ChannelId.parse? text = some c.id) :
    ∃ next last, s.step (.dequeue text) = .ok (.events c.events.toList, next) ∧
      next.step (.dequeue text) = .ok (.events [], last) := by
  have hone : ∀ {t : Session} {es : List DeliveredEvent}, t.Quiet →
      (t.broker.dequeue c.id t.moment).1 = .ok es → t.step (.dequeue text) =
        .ok (.events es, { t with broker := (t.broker.dequeue c.id t.moment).2 }) := by
    intro t es hq he
    refine (hq.step_iff rfl).mpr ?_
    cases hd : t.broker.dequeue c.id t.moment with
    | mk outcome b =>
      rw [hd] at he
      cases he
      simp [Session.act, onChannel, ht, hd]
  obtain ⟨hfirst, hsecond⟩ := h.dequeue_twice hn hc s.moment s.moment
  have hs := hone hq hfirst
  exact ⟨_, _, hs, hone (hq.step rfl hs).1 hsecond⟩

end Quiet

end Session

namespace Creation

variable {s : Session} {steps : List Step} {answers : List Answer} {final : Session}
  {id : ChannelId}

theorem facade (k : Creation s steps answers final id) (hf : ∀ x ∈ steps, x.isFacade = true) :
    (∀ x ∈ k.before, x.isFacade = true) ∧ ∀ x ∈ k.after, x.isFacade = true := by
  rw [k.steps_eq, List.forall_mem_append, List.forall_mem_cons] at hf
  exact ⟨hf.1, hf.2.2⟩

theorem nextChannel_le (k : Creation s steps answers final id) (h : k.made.broker.Linked) :
    k.made.broker.nextChannel ≤ final.broker.nextChannel := by
  rw [Session.run_replays h k.run_after]
  exact Broker.nextChannel_le_replay _ _

/-- What was taken out of a channel since its creation and what it holds is what fired into it.
The channel with the serial number that was next is the one that was made. -/
theorem balance (k : Creation s steps answers final id) (hq : k.prior.Quiet)
    (h : k.prior.broker.Linked) (hf : ∀ x ∈ k.after, x.isFacade = true)
    (hn : k.made.broker.Identified k.made.supply.channel)
    (hi : Set.InjOn k.made.supply.channel (Set.Iio final.broker.nextChannel)) {c : Channel}
    (hc : c ∈ final.broker.channels) (hs : c.serial = k.prior.broker.nextChannel) :
    c.id = id ∧ ∃ targets, k.prior.broker.registry.resolve k.queues = .ok targets ∧
      k.taken ++ c.events.toList = (k.fired.filter
        (Firing.goesInto c.id k.made.broker.channelCapacity targets)).map Firing.event := by
  have hqm := (hq.step rfl k.step_create).1
  have hlm := Session.linked_step h k.step_create
  obtain ⟨targets, ts, hres, hts, hch, hnext⟩ := hq.created k.step_create
  rw [Session.run_replays hlm k.run_after] at hi hc
  obtain ⟨c₀, hc₀, hbare, hbal⟩ := hlm.replay_events hn
    (Session.takesNext_run hlm k.run_after) hi hc (by omega)
  obtain ⟨hser, hcid, hsrc, -⟩ := Channel.of_bare hbare
  rw [hch, List.mem_append, List.mem_singleton] at hc₀
  rcases hc₀ with hc₀ | rfl
  · have := h.serial_lt c₀ hc₀
    omega
  obtain rfl : c.id = id := hcid
  have hgoes : Firing.goesInto c.id k.made.broker.channelCapacity c.feeders =
      Firing.goesInto c.id k.made.broker.channelCapacity targets := by
    funext f
    simp only [Firing.goesInto, Channel.feeders, hsrc, Option.getD_some, hts]
  refine ⟨rfl, targets, hres, ?_⟩
  rw [taken, ← hqm.taken_run hlm hf k.run_after, ← hgoes]
  exact hbal

/-- What fires into one of the incarnations that the names meant was registered under its name
then. -/
theorem source (k : Creation s steps answers final id) (h : k.prior.broker.Linked)
    {targets : List Nat} (hres : k.prior.broker.registry.resolve k.queues = .ok targets)
    {f : Firing} (hf : f ∈ k.fired) (ht : f.queue.serial ∈ targets) :
    ∃ q ∈ k.prior.broker.registry.registered,
      q.serial = f.queue.serial ∧ q.id = f.queue.id ∧ q.id ∈ k.queues := by
  have hlm := Session.linked_step h k.step_create
  obtain ⟨hg, -, -, credit, hext⟩ := hlm.extends_firing hf
  obtain ⟨name, hname, q, hfind, hqs⟩ := Registry.mem_resolve hres ht
  obtain ⟨hmem, hret, hqid⟩ := Registry.find?_spec hfind
  have hmade := h.extends_replay (k.prior.stepDeeds (.createChannel k.queues k.options))
  rw [← Session.step_replays h k.step_create] at hmade
  have hq := h.numbered.get?_of_find? hfind
  obtain ⟨q', hq', hidq, -⟩ := (hmade.trans hext).kept q.serial q hq
  rw [hqs, hg] at hq'
  cases hq'
  exact ⟨q, List.mem_filter.mpr ⟨hmem, by simp [hret]⟩, hqs, hidq.symm, hqid ▸ hname⟩

end Creation

namespace Session

/-- Every event that a channel has given or still holds is one that fired after its creation into an
incarnation that its names meant then, and found room. No rule is among them twice; an incarnation
that began later is not meant, be its name the same. -/
theorem channel_delivers {supply : IdSupply} {settings : BrokerSettings} {b : Broker} {m : Moment}
    (hb : Broker.new settings = .ok b) {steps : List Step} {answers : List Answer}
    {final : Session} (hf : ∀ x ∈ steps, x.isFacade = true)
    (hr : (Session.new supply b m).run steps = .ok (answers, final))
    (hi : Set.InjOn supply.channel (Set.Iio final.broker.nextChannel)) {c : Channel}
    (hc : c ∈ final.broker.channels) :
    ∃ k : Creation (Session.new supply b m) steps answers final c.id, ∃ targets,
      k.prior.broker.registry.resolve k.queues = .ok targets ∧
      k.taken ++ c.events.toList =
        (k.fired.filter (Firing.goesInto c.id settings.channelCapacity targets)).map
          Firing.event ∧
      (k.fired.map (·.rule.order)).Nodup ∧
      (∀ f ∈ k.fired, f.queue.serial ∈ targets → ∃ q ∈ k.prior.broker.registry.registered,
        q.serial = f.queue.serial ∧ q.id = f.queue.id ∧ q.id ∈ k.queues) ∧
      ∀ text, ChannelId.parse? text = some c.id → ∃ next last,
        final.step (.dequeue text) = .ok (.events c.events.toList, next) ∧
        next.step (.dequeue text) = .ok (.events [], last) := by
  have hq := Quiet.new supply b m
  have hl : (Session.new supply b m).broker.Linked := Broker.Linked.new hb
  have hlf := linked_run hl hr
  have hzero : (Session.new supply b m).broker.nextChannel = 0 :=
    congrArg Broker.nextChannel (Broker.new_eq hb)
  obtain ⟨id, k, hn⟩ := hq.exists_creation hl hf hr (by omega) (hlf.serial_lt c hc)
  obtain ⟨hfb, hfa⟩ := k.facade hf
  have hqp := (hq.run hfb k.run_before).1
  have hlp := linked_run hl k.run_before
  -- the run up to the creation is one of its own
  have hrm := run_concat k.run_before k.step_create
  have hfm : ∀ x ∈ k.before ++ [.createChannel k.queues k.options], x.isFacade = true :=
    List.forall_mem_append.mpr ⟨hfb, by simp [Step.isFacade]⟩
  obtain ⟨hqm, hsupply⟩ := hq.run hfm hrm
  have hlm := linked_run hl hrm
  have hsupply' : k.made.supply.channel = supply.channel := congrArg IdSupply.channel hsupply
  have hid : k.made.broker.Identified supply.channel :=
    identified_run hb hrm (hi.mono (Set.Iio_subset_Iio (k.nextChannel_le hlm)))
  obtain ⟨rfl, targets, hres, hbal⟩ :=
    k.balance hqp hlp hfa (hsupply' ▸ hid) (hsupply' ▸ hi) hc hn.symm
  have hcap : k.made.broker.channelCapacity = settings.channelCapacity := by
    rw [run_replays hl hrm, Broker.replay_channelCapacity]
    exact congrArg Broker.channelCapacity (Broker.new_eq hb)
  refine ⟨k, targets, hres, hcap ▸ hbal, ?_, fun f hfired ht => k.source hlp hres hfired ht,
    fun text ht => ?_⟩
  · have ho := (hq.spent_run hl (Spent.new hb) hfm hrm).ordered
    exact (List.nodup_append.mp (hqm.spent_run hlm (Spent.start ho) hfa k.run_after).nodup).1
  · exact (hq.run hf hr).1.dequeue_twice hlf (identified_run hb hr hi) hc ht

/-- An event for each of two queues fires, and a channel is emptied. One queue is deleted and
registered again, and then another event for each of them fires. -/
def emptying : List Step :=
  [.submit ⟨[65], none, [⟨"jobs", 5, none⟩]⟩, .fire (some 5),
    .submit ⟨[66], none, [⟨"mail", 6, none⟩]⟩, .fire (some 6),
    .dequeue "00000000-0000-0000-0000-000000000000",
    .deleteQueue "jobs", .createQueue "jobs",
    .submit ⟨[67], none, [⟨"jobs", 7, none⟩]⟩, .fire (some 7),
    .submit ⟨[68], none, [⟨"mail", 8, none⟩]⟩, .fire (some 8)]

/-- A channel with room for one event, one of whose queues is named twice. Of four rules that fire
it gives one, finds no room for the next and holds the last; the third one fires into an incarnation
that was not meant. -/
theorem channel_delivers_once : ∃ b steps answers final c,
    Broker.new { channelCapacity := 1 } = .ok b ∧
    steps = [.createQueue "jobs", .createQueue "mail"] ++
      .createChannel ["jobs", "mail", "jobs"] ⟨0, 1⟩ :: emptying ∧
    (Session.new .counting b ⟨0, 0⟩).run steps = .ok (answers, final) ∧
    c ∈ final.broker.channels ∧
    ∃ k : Creation (Session.new .counting b ⟨0, 0⟩) steps answers final c.id, ∃ targets,
      k.fired.length = 4 ∧ k.taken.length = 1 ∧ c.events.toList.length = 1 ∧
      k.taken ++ c.events.toList =
        (k.fired.filter (Firing.goesInto c.id 1 targets)).map Firing.event := by
  obtain ⟨b, hb⟩ : ∃ b, Broker.new { channelCapacity := 1 } = .ok b := ⟨_, rfl⟩
  obtain ⟨earlier, made, hmade, hp⟩ := of_endsWith (r := (Session.new .counting b ⟨0, 0⟩).run
      ([.createQueue "jobs", .createQueue "mail"] ++
        [.createChannel ["jobs", "mail", "jobs"] ⟨0, 1⟩]))
    (p := fun _ made => (firings (made.journal emptying)).length == 4 &&
      endsWith (made.run emptying) fun later final => final.broker.nextChannel == 1 &&
        (final.broker.channels.map (·.id) == [⟨Uuid.ofNat 0⟩] &&
        (final.broker.channels.all (·.events.size == 1) &&
        ((emptying.zip later).flatMap (taken ⟨Uuid.ofNat 0⟩)).length == 1)))
    (by cases hb; decide +kernel)
  rw [Bool.and_eq_true, beq_iff_eq] at hp
  obtain ⟨later, final, hlater, hp'⟩ := of_endsWith hp.2
  simp only [Bool.and_eq_true, beq_iff_eq, List.all_eq_true] at hp'
  obtain ⟨hn, hids, hsize, htaken⟩ := hp'
  have hr := run_append_eq_ok_iff.mpr ⟨earlier, later, made, hmade, hlater, rfl⟩
  rw [List.append_assoc, List.singleton_append] at hr
  obtain ⟨c, hc, hid⟩ := List.mem_map.mp (hids ▸ List.mem_cons_self)
  have hi : Set.InjOn IdSupply.counting.channel (Set.Iio final.broker.nextChannel) := by
    rw [hn]
    exact injOn_Iio_one _
  obtain ⟨k, targets, -, hbal, -⟩ := channel_delivers hb (by decide) hr hi hc
  -- only one of the steps creates a channel
  obtain ⟨hbefore, hcreate, hafter⟩ :=
    (List.append_cons_inj_of_notMem (by simp) (by simp [emptying])).mp k.steps_eq
  have hprior := run_concat k.run_before k.step_create
  rw [← hbefore, ← hcreate, hmade] at hprior
  obtain ⟨-, hsame⟩ := Prod.mk.inj (Except.ok.inj hprior)
  have hrest := k.run_after
  rw [← hsame, ← hafter, hlater] at hrest
  obtain ⟨hanswers, -⟩ := Prod.mk.inj (Except.ok.inj hrest)
  refine ⟨b, _, earlier ++ later, final, c, hb, rfl, hr, hc, k, targets, ?_, ?_, ?_, hbal⟩
  · rw [Creation.fired, ← hsame, ← hafter]
    exact hp.1
  · rw [Creation.taken, ← hafter, ← hanswers, hid]
    exact htaken
  · rw [← Fifo.size_eq_length]
    exact hsize c hc

end Session

end EventBroker
