import EventBroker.Proofs.ChannelHistory
import EventBroker.Proofs.SessionFrames

/-! # The identifiers of channels

Only callers create channels, one in a step, and each gets the identifier that is next in the
session's supply (`takesNext_run`), whether it is asked for on the broker itself or over HTTP. As
long as the supply gives no identifier twice, live channels are told apart by their identifiers
(`identified_run`).
-/
set_option autoImplicit false

namespace EventBroker

/-- As long as a supply has given one identifier, it has given none twice. -/
theorem injOn_Iio_one {α : Type} (f : Nat → α) : Set.InjOn f (Set.Iio 1) := by
  intro i hi j hj _
  simp only [Set.mem_Iio] at hi hj
  omega

namespace Broker

variable {b : Broker} {m : Moment} {d : Deed}

theorem deleteQueueDeeds_creates {id : String} (hd : d ∈ b.deleteQueueDeeds id m) :
    d.action.createsChannel = false := by
  unfold deleteQueueDeeds at hd
  split at hd
  · simp only [List.mem_cons, List.not_mem_nil, or_false] at hd
    rcases hd with rfl | rfl <;> rfl
  · cases hd

theorem submitDeeds_creates {id : EventId} {event : NewEvent}
    (hd : d ∈ b.submitDeeds id event m) : d.action.createsChannel = false := by
  unfold submitDeeds at hd
  split at hd
  · rw [List.mem_singleton.mp hd]
    rfl
  · cases hd

theorem closeDeeds_creates {id : ChannelId} (hd : d ∈ b.closeDeeds id m) :
    d.action.createsChannel = false := by
  unfold closeDeeds at hd
  split at hd
  · rw [List.mem_singleton.mp hd]
    rfl
  · cases hd

end Broker

/-- Whether deeds create a channel under an identifier and do nothing else, or create none. -/
def CreatesAtMost (id : ChannelId) (deeds : List Deed) : Prop :=
  (∀ d ∈ deeds, d.action.createsChannel = false) ∨
    ∃ m queues options, deeds = [⟨m, .createChannel id queues options⟩]

namespace CreatesAtMost

variable {id : ChannelId}

theorem nil : CreatesAtMost id [] := .inl (List.forall_mem_nil _)

theorem single {m : Moment} {action : Action} (h : action.createsChannel = false) :
    CreatesAtMost id [⟨m, action⟩] := .inl (List.forall_mem_singleton.mpr h)

/-- For what may be asked for or not. -/
theorem optional {α : Type} {o : Option α} {deeds : α → List Deed}
    (h : ∀ a, CreatesAtMost id (deeds a)) : CreatesAtMost id (o.toList.flatMap deeds) := by
  cases o with
  | none => exact nil
  | some a => simpa using h a

/-- A single deed that creates a channel meets the broker at hand. -/
theorem takesNext {ident : Nat → ChannelId} {b : Broker} {deeds : List Deed}
    (h : CreatesAtMost (ident b.nextChannel) deeds) {y : Broker × Deed}
    (hy : y ∈ b.journal deeds) : y.1.TakesNext ident y.2 := by
  intro id queues options ha
  rcases h with h | ⟨m, qs, opts, rfl⟩
  · have hd := h y.2 (Broker.mem_of_mem_journal hy)
    rw [ha] at hd
    cases hd
  · obtain rfl := List.mem_singleton.mp hy
    cases ha
    rfl

end CreatesAtMost

/-! ## Requests and steps -/

theorem Api.resourceDeeds_creates (b : Broker) (fresh : Api.FreshIds) (m : Moment)
    (req : Http.Request) (resource : Api.Resource) (verb : Api.Verb) :
    CreatesAtMost fresh.channel (Api.resourceDeeds b fresh m req resource verb) := by
  unfold Api.resourceDeeds
  split
  · exact .optional fun body => .single rfl
  · exact .optional fun id => .inl fun d hd => Broker.deleteQueueDeeds_creates hd
  · exact .optional fun body => .inl fun d hd => Broker.submitDeeds_creates hd
  · exact .optional fun body => .inr ⟨m, _, _, rfl⟩
  · exact .optional fun id => .single rfl
  · exact .optional fun id => .inl fun d hd => Broker.closeDeeds_creates hd
  · exact .optional fun id => .single rfl
  · split
    · exact .optional fun category => .single rfl
    · exact .nil
  · exact .nil

theorem Api.deeds_creates (b : Broker) (fresh : Api.FreshIds) (m : Moment) (req : Http.Request) :
    CreatesAtMost fresh.channel (Api.deeds b fresh m req) := by
  unfold Api.deeds
  split
  · exact .nil
  split
  · exact .nil
  · exact Api.resourceDeeds_creates b fresh m req _ _

namespace Session

variable {s s' : Session} {x : Step} {a : Answer}

theorem callerDeeds_creates (s : Session) (x : Step) :
    CreatesAtMost s.fresh.channel (s.callerDeeds x) := by
  cases x with
  | createQueue | subscribe | dropBroker => exact .single rfl
  | deleteQueue id => exact .inl fun d hd => Broker.deleteQueueDeeds_creates hd
  | submit event => exact .inl fun d hd => Broker.submitDeeds_creates hd
  | createChannel queues options => exact .inr ⟨_, _, _, rfl⟩
  | getChannel text | dequeue text => exact .optional fun id => .single rfl
  | deleteChannel text => exact .optional fun id => .inl fun d hd => Broker.closeDeeds_creates hd
  | reap timeout =>
    refine .inl fun d hd => ?_
    obtain ⟨c, -, rfl⟩ := List.mem_map.mp hd
    rfl
  | fire now =>
    refine .inl fun d hd => ?_
    rcases List.mem_cons.mp hd with rfl | hd
    · rfl
    · obtain ⟨r, -, rfl⟩ := List.mem_map.mp hd
      rfl
  | receive | receiveOne | unsubscribe =>
    refine .inl fun d hd => ?_
    obtain ⟨sub, -, rfl⟩ := List.mem_map.mp hd
    rfl
  | http | connect => exact .optional fun req => Api.deeds_creates _ _ _ req
  | send index message =>
    cases message with
    | ping text =>
      simp only [callerDeeds]
      split
      · exact .nil
      · refine .optional fun socket => .inl fun d hd => ?_
        obtain ⟨sub, -, rfl⟩ := endDeeds_eq hd
        rfl
    | text | binary => exact .nil
  | closeSocket index abrupt =>
    refine .optional fun socket => .inl fun d hd => ?_
    obtain ⟨sub, -, rfl⟩ := endDeeds_eq hd
    rfl
  | listQueues | getQueue | listChannels | now | advance | setWall | subscriberCount | metrics
  | startDriver | stopDriver | startReaper | readSocket => exact .nil

theorem taskDeeds_creates {d : Deed} (hd : d ∈ s.taskDeeds) :
    d.action.createsChannel = false := by
  simp only [taskDeeds, List.mem_append] at hd
  rcases hd with (hd | hd) | hd
  · cases ha : d.action with
    | createChannel => rcases driverDeeds_kind hd with h | h <;> (rw [ha] at h; cases h)
    | _ => rfl
  · obtain ⟨serial, rfl⟩ := reapersDeeds_kind hd
    rfl
  · obtain ⟨socket, -, sub, -, rfl | rfl⟩ := socketsDeeds_kind hd <;> rfl

/-! ## The supply -/

theorem settle_supply (hs : s.settle = .ok s') : s'.supply = s.supply := by
  rw [runSockets_eq hs]
  show s.runDriver.supply = s.supply
  unfold runDriver
  split
  · rfl
  · split <;> rfl

theorem act_supply (ha : s.act x = .ok (a, s')) : s'.supply = s.supply := by
  by_cases ht : ∃ ms, x = .advance ms
  · obtain ⟨ms, rfl⟩ := ht
    obtain ⟨t, hp, he⟩ := map_eq_ok_iff.mp ha
    cases he
    exact advance_keeps (fun _ _ => rfl) (fun _ _ => settle_supply) hp
  by_cases hd : x.isDrop = true
  · cases x with
    | dropBroker limit =>
      rw [show s' = (s.dropBroker limit).2 from (congrArg Prod.snd (Except.ok.inj ha)).symm]
      simp only [dropBroker, driverEnd]
      split <;> rfl
    | _ => cases hd
  · exact (act_acted (fun ms he => ht ⟨ms, he⟩) (by simpa using hd) ha).supply

theorem step_supply (hs : s.step x = .ok (a, s')) : s'.supply = s.supply := by
  obtain ⟨acted, ha, ht⟩ := step_eq_ok_iff.mp hs
  exact (settle_supply ht).trans (act_supply ha)

/-- A channel that is created in the course of a run gets the identifier that is next. -/
theorem takesNext_run {steps : List Step} {answers : List Answer} (h : s.broker.Linked)
    (hr : s.run steps = .ok (answers, s')) :
    ∀ y ∈ s.journal steps, y.1.TakesNext s.supply.channel y.2 := by
  induction steps generalizing s answers with
  | nil => exact List.forall_mem_nil _
  | cons x rest ih =>
    obtain ⟨a, mid, later, hx, hr, -⟩ := run_cons_eq_ok_iff.mp hr
    intro y hy
    rw [journal_cons h hx, stepDeeds, Broker.journal_append, List.mem_append, List.mem_append] at hy
    rcases hy with (hy | hy) | hy
    · exact (s.callerDeeds_creates x).takesNext hy
    · intro id queues options ha
      obtain ⟨found, -, hd⟩ := List.mem_flatMap.mp (Broker.mem_of_mem_journal hy)
      have hc := taskDeeds_creates hd
      rw [ha] at hc
      cases hc
    · rw [← step_supply hx]
      exact ih (linked_step h hx) hr y hy

theorem identified_run {supply : IdSupply} {settings : BrokerSettings} {b : Broker} {m : Moment}
    (hb : Broker.new settings = .ok b) {steps : List Step} {answers : List Answer}
    {final : Session} (hr : (Session.new supply b m).run steps = .ok (answers, final))
    (hi : Set.InjOn supply.channel (Set.Iio final.broker.nextChannel)) :
    final.broker.Identified supply.channel := by
  have hl : (Session.new supply b m).broker.Linked := Broker.Linked.new hb
  have ht := takesNext_run hl hr
  rw [run_replays hl hr] at hi ⊢
  exact (Broker.Identified.new hb supply.channel).replay hl ht hi

end Session

end EventBroker
