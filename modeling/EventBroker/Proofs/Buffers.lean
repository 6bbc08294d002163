import EventBroker.Proofs.SessionRuns

/-! # Requests and what channels hold

A request shows what it takes out of a channel, or takes nothing: with one exception, and deleting a
channel aside. `HEAD` is answered like `GET`, and the answer then loses its body; for the events of
a channel the answer's body is where they went (`Api.accountable_iff`).
-/
set_option autoImplicit false

namespace EventBroker

/-- Whether an action takes nothing out of a channel and puts nothing into one. -/
def Action.sparesBuffers : Action → Bool
  | .fire _ | .dequeue _ | .close _ | .drop => false
  | _ => true

namespace Broker

/-- What the channel with a serial number holds. -/
def buffered (b : Broker) (serial : Nat) : List DeliveredEvent :=
  ((b.at? serial).map (·.events.toList)).getD []

variable {b b' : Broker}

theorem buffered_of_channels (h : b'.channels = b.channels) (serial : Nat) :
    b'.buffered serial = b.buffered serial := by
  rw [buffered, at?, h]
  rfl

theorem buffered_map {f : Channel → Channel} (hf : ∀ c, (f c).serial = c.serial)
    (he : ∀ c, (f c).events.toList = c.events.toList) (h : b'.channels = b.channels.map f)
    (serial : Nat) : b'.buffered serial = b.buffered serial := by
  rw [buffered, at?_map hf h, Option.map_map]
  simp only [Function.comp_def, he]
  rfl

theorem buffered_append {c : Channel} (he : c.events.toList = [])
    (h : b'.channels = b.channels ++ [c]) (serial : Nat) :
    b'.buffered serial = b.buffered serial := by
  simp only [buffered, at?, h, List.find?_append]
  cases b.channels.find? (·.serial == serial) with
  | some c' => rfl
  | none =>
    by_cases hs : c.serial = serial
    · simp [hs, he]
    · simp [hs]

theorem buffered_perform {d : Deed} (h : d.action.sparesBuffers = true) (serial : Nat) :
    (b.perform d).buffered serial = b.buffered serial := by
  obtain ⟨m, action⟩ := d
  cases action with
  | createChannel id queues options =>
    simp only [perform]
    rcases b.createChannel_cases id queues options m with ⟨e, he⟩ | ⟨_, _, -, -, -, he⟩
    · rw [he]
    · rw [he]
      exact buffered_append rfl rfl serial
  | getChannel id =>
    simp only [perform, getChannel]
    split
    · rfl
    · next c _ =>
      refine buffered_map (f := fun c' => if c'.serial = c.serial then c'.touch m.now else c')
        (fun c' => ?_) (fun c' => ?_) rfl serial
      · split <;> rfl
      · split <;> rfl
  | fire | dequeue | close | drop => cases h
  | _ => exact buffered_of_channels ((perform_framed b _).channels rfl) serial

theorem buffered_replay {deeds : List Deed} (h : ∀ d ∈ deeds, d.action.sparesBuffers = true)
    (serial : Nat) : (b.replay deeds).buffered serial = b.buffered serial := by
  induction deeds generalizing b with
  | nil => rfl
  | cons d rest ih =>
    rw [List.forall_mem_cons] at h
    rw [replay_cons, ih h.2, buffered_perform h.1]

/-- Emptying one channel leaves the others alone. -/
theorem buffered_drain (h : b.Distinct) {c : Channel} (hc : c ∈ b.channels) (now serial : Nat) :
    (b.updateChannel c.serial fun c => (c.touch now).drain).buffered serial =
      if c.serial = serial then [] else b.buffered serial := by
  have hm : (b.updateChannel c.serial fun c => (c.touch now).drain).at? serial =
      (b.at? serial).map fun c' => if c'.serial = c.serial then (c'.touch now).drain else c' :=
    at?_map (fun c' => by split <;> rfl) rfl serial
  rw [buffered, hm]
  split
  · next hs =>
    subst hs
    rw [h.at?_of_mem hc]
    simp [Channel.drain]
  · next hs =>
    cases ha : b.at? serial with
    | none => simp [buffered, ha]
    | some c' =>
      have hne : c'.serial ≠ c.serial := by
        rw [serial_of_at? ha]
        exact fun he => hs he.symm
      simp [buffered, ha, hne]

end Broker

namespace Api

/-- Whether a reply hands over some events: its body lists them in order. No events need no body. -/
def Reply.Shows (reply : Reply) (es : List DeliveredEvent) : Prop :=
  es = [] ∨ ∃ r, reply = .response r ∧
    r.body = .json (ChannelEventsResponse.toJson ⟨es.map ChannelEvent.ofDelivered⟩)

/-- Whether everything that has left a channel is shown. -/
def Accountable (b b' : Broker) (reply : Reply) : Prop :=
  ∀ serial, ∃ removed, b.buffered serial = removed ++ b'.buffered serial ∧ reply.Shows removed

theorem Accountable.of_buffered {b b' : Broker} (reply : Reply)
    (h : ∀ serial, b'.buffered serial = b.buffered serial) : Accountable b b' reply :=
  fun serial => ⟨[], by rw [h, List.nil_append], .inl rfl⟩

/-- The live channel whose events a path leads to. -/
def eventsOf? (b : Broker) (path : String) : Option Channel :=
  match Resource.ofPath? path with
  | some (.channelEvents raw) => (channelNamed? raw).bind b.channel?
  | _ => none

theorem resourceDeeds_spare (b : Broker) (fresh : FreshIds) (m : Moment) (req : Http.Request)
    {resource : Resource} {verb : Verb} (he : ∀ raw, resource ≠ .channelEvents raw)
    (hd : ∀ raw, resource = .channel raw → verb ≠ .delete) {d : Deed}
    (hm : d ∈ resourceDeeds b fresh m req resource verb) : d.action.sparesBuffers = true := by
  unfold resourceDeeds at hm
  split at hm
  · obtain ⟨body, -, hm⟩ := List.mem_flatMap.mp hm
    rw [List.mem_singleton.mp hm]
    rfl
  · obtain ⟨id, -, hm⟩ := List.mem_flatMap.mp hm
    unfold Broker.deleteQueueDeeds at hm
    split at hm
    · simp only [List.mem_cons, List.not_mem_nil, or_false] at hm
      rcases hm with rfl | rfl <;> rfl
    · cases hm
  · obtain ⟨body, -, hm⟩ := List.mem_flatMap.mp hm
    unfold Broker.submitDeeds at hm
    split at hm
    · rw [List.mem_singleton.mp hm]
      rfl
    · cases hm
  · obtain ⟨body, -, hm⟩ := List.mem_flatMap.mp hm
    rw [List.mem_singleton.mp hm]
    rfl
  · obtain ⟨id, -, hm⟩ := List.mem_flatMap.mp hm
    rw [List.mem_singleton.mp hm]
    rfl
  · exact absurd rfl (hd _ rfl)
  · exact absurd rfl (he _)
  · split at hm
    · obtain ⟨category, -, hm⟩ := List.mem_flatMap.mp hm
      rw [List.mem_singleton.mp hm]
      rfl
    · cases hm
  · cases hm

theorem verb?_channelEvents (raw method : String) :
    (Resource.channelEvents raw).verb? method =
      if method = "GET" ∨ method = "HEAD" then some .get else none := by
  simp only [Resource.verb?, Resource.verbs, List.find?_singleton, Verb.methods,
    List.contains_cons, List.contains_nil, Bool.or_false, Bool.or_eq_true, beq_iff_eq]

/-- Reading the events of a channel: the request is refused, or it takes everything and answers it
as the method wants it. -/
theorem serve_channelEvents {b b' : Broker} {fresh : FreshIds} {m : Moment} {req : Http.Request}
    {reply : Reply} {raw : String} (hp : Resource.ofPath? req.path = some (.channelEvents raw))
    (hs : serve b fresh m req = .ok (reply, b')) :
    (b' = b ∧ (req.method = "HEAD" → eventsOf? b req.path = none)) ∨
      ∃ c ∈ b.channels, eventsOf? b req.path = some c ∧
        (req.method = "GET" ∨ req.method = "HEAD") ∧
        b'.channels = (b.updateChannel c.serial fun c => (c.touch m.now).drain).channels ∧
        reply = .response (forMethod req.method (.ok (ChannelEventsResponse.toJson
          ⟨c.events.toList.map ChannelEvent.ofDelivered⟩))) := by
  have he : eventsOf? b req.path = (channelNamed? raw).bind b.channel? := by
    simp only [eventsOf?, hp]
  rw [he]
  simp only [serve, hp, verb?_channelEvents] at hs
  by_cases hm : req.method = "GET" ∨ req.method = "HEAD"
  · simp only [if_pos hm, answer, withName] at hs
    unfold channelNamed?
    cases hd : Percent.decodeText? raw with
    | none =>
      simp only [hd, Except.ok.injEq, Prod.mk.injEq] at hs
      exact .inl ⟨hs.2.symm, fun _ => rfl⟩
    | some text =>
      simp only [hd, withChannel] at hs
      cases hc : ChannelId.parse? text with
      | none =>
        simp only [hc, Except.ok.injEq, Prod.mk.injEq] at hs
        exact .inl ⟨hs.2.symm, fun _ => by rw [Option.bind_some, hc]; rfl⟩
      | some id =>
        simp only [hc, Broker.dequeue] at hs
        cases hf : b.channel? id with
        | none =>
          simp only [hf, respond, Except.ok.injEq, Prod.mk.injEq] at hs
          exact .inl ⟨hs.2.symm, fun _ => by rw [Option.bind_some, hc, Option.bind_some, hf]⟩
        | some c =>
          simp only [hf, respond, Except.ok.injEq, Prod.mk.injEq] at hs
          refine .inr ⟨c, List.mem_of_find?_eq_some hf, ?_, hm, ?_, hs.1.symm⟩
          · rw [Option.bind_some, hc, Option.bind_some, hf]
          · rw [← hs.2]
  · simp only [if_neg hm, Except.ok.injEq, Prod.mk.injEq] at hs
    exact .inl ⟨hs.2.symm, fun hh => absurd (.inr hh) hm⟩

/-- What is shown to `HEAD` is nothing. -/
theorem Reply.Shows.eq_nil_of_head {r : Http.Response} {es : List DeliveredEvent}
    (h : Reply.Shows (.response (Api.forMethod "HEAD" r)) es) : es = [] := by
  rcases h with h | ⟨r', hr, hb⟩
  · exact h
  · cases hr
    cases hb

/-- The events that leave a channel in the course of a request are shown in its reply, unless the
request deletes the channel: just when it is no `HEAD` request for the events of a channel that
holds some. -/
theorem accountable_iff {b b' : Broker} (hl : b.Linked) {fresh : FreshIds} {m : Moment}
    {req : Http.Request} {reply : Reply}
    (hd : ¬ ∃ raw, Resource.ofPath? req.path = some (.channel raw) ∧ req.method = "DELETE")
    (hs : serve b fresh m req = .ok (reply, b')) :
    Accountable b b' reply ↔
      ¬ (req.method = "HEAD" ∧ ∃ c, eventsOf? b req.path = some c ∧ c.events.toList ≠ []) := by
  -- apart from deleting a channel, only requests for its events have a deed that touches a buffer
  by_cases hp : ∃ raw, Resource.ofPath? req.path = some (.channelEvents raw)
  · obtain ⟨raw, hp⟩ := hp
    rcases serve_channelEvents hp hs with ⟨rfl, hnone⟩ | ⟨c, hc, he, hm, hch, rfl⟩
    · refine iff_of_true (.of_buffered reply fun _ => rfl) ?_
      rintro ⟨hm, c, he, -⟩
      rw [hnone hm] at he
      cases he
    · have hbuf : ∀ serial, b'.buffered serial =
          if c.serial = serial then [] else b.buffered serial := fun serial =>
        (Broker.buffered_of_channels hch serial).trans
          (Broker.buffered_drain hl.distinct hc m.now serial)
      have hown : b.buffered c.serial = c.events.toList := by
        simp [Broker.buffered, hl.distinct.at?_of_mem hc]
      constructor
      · rintro hacc ⟨hm, c', he', hne⟩
        rw [he] at he'
        cases he'
        obtain ⟨removed, hr, hshow⟩ := hacc c.serial
        rw [hbuf, if_pos rfl, List.append_nil, hown] at hr
        rw [hm] at hshow
        exact hne (hr.trans hshow.eq_nil_of_head)
      · intro hno serial
        by_cases hser : c.serial = serial
        · subst hser
          refine ⟨c.events.toList, by rw [hbuf, if_pos rfl, List.append_nil, hown], ?_⟩
          rcases hm with hm | hm
          · refine .inr ⟨_, rfl, ?_⟩
            rw [hm, forMethod, if_neg (by decide)]
            rfl
          · left
            by_contra hne
            exact hno ⟨hm, c, he, hne⟩
        · exact ⟨[], by rw [hbuf, if_neg hser, List.nil_append], .inl rfl⟩
  · have hevents : ∀ raw, Resource.ofPath? req.path ≠ some (.channelEvents raw) :=
      fun raw hr => hp ⟨raw, hr⟩
    refine iff_of_true (.of_buffered reply fun serial => ?_) ?_
    · rw [serve_replays hl.distinct hs]
      refine Broker.buffered_replay (fun d hm => ?_) serial
      unfold deeds at hm
      split at hm
      · cases hm
      · next resource hres =>
        split at hm
        · cases hm
        · next verb hv =>
          refine resourceDeeds_spare b fresh m req (fun raw hr => ?_) (fun raw hr hdel => ?_) hm
          · exact hevents raw (hr ▸ hres)
          · subst hr hdel
            refine hd ⟨raw, hres, ?_⟩
            simpa [Resource.verb?, Resource.verbs, Verb.methods] using List.find?_some hv
    · rintro ⟨-, c, he, -⟩
      unfold eventsOf? at he
      split at he
      · next raw hr => exact hevents raw hr
      · cases he

end Api

namespace Session

/-- Whatever the state of the session and whatever is requested, short of deleting a channel: events
that leave a channel are in the answer, just when it is no `HEAD` request for the events of a
channel that holds some. -/
theorem request_accountable_iff {s : Session} (h : s.Reachable) {fresh : Api.FreshIds} {m : Moment}
    {req : Http.Request} {reply : Api.Reply} {b' : Broker}
    (hd : ¬ ∃ raw, Api.Resource.ofPath? req.path = some (.channel raw) ∧ req.method = "DELETE")
    (hs : Api.serve s.broker fresh m req = .ok (reply, b')) :
    Api.Accountable s.broker b' reply ↔
      ¬ (req.method = "HEAD" ∧
        ∃ c, Api.eventsOf? s.broker req.path = some c ∧ c.events.toList ≠ []) :=
  Api.accountable_iff h.linked hd hs

/-- A `HEAD` request for the events of a channel that holds one loses it. -/
theorem head_request_loses_event :
    ∃ (s : Session) (reply : Api.Reply) (b' : Broker), s.Reachable ∧
      Api.serve s.broker s.fresh s.moment
        ⟨"HEAD", "/channels/00000000-0000-0000-0000-000000000000/events", none, [], false⟩ =
          .ok (reply, b') ∧ ¬ Api.Accountable s.broker b' reply := by
  obtain ⟨b, hb⟩ : ∃ b, Broker.new {} = .ok b := ⟨_, rfl⟩
  obtain ⟨answers, s, hr, hp⟩ := of_endsWith (r := (Session.new .counting b ⟨0, 0⟩).run
    [.createQueue "jobs", .createChannel ["jobs"] ⟨0, 1⟩,
      .submit ⟨[65], none, [⟨"jobs", 5, none⟩]⟩, .fire (some 7)])
    (p := fun _ s =>
      (Api.serve s.broker s.fresh s.moment
        ⟨"HEAD", "/channels/00000000-0000-0000-0000-000000000000/events", none, [], false⟩).isOk &&
      (Api.eventsOf? s.broker "/channels/00000000-0000-0000-0000-000000000000/events").any
        fun c => !c.events.isEmpty) (by cases hb; decide +kernel)
  rw [Bool.and_eq_true] at hp
  obtain ⟨hok, hany⟩ := hp
  obtain ⟨c, hc, hne⟩ := (Option.any_eq_true ..).mp hany
  have hs : s.Reachable := ⟨_, _, b, _, _, answers, hb, hr⟩
  cases hserve : Api.serve s.broker s.fresh s.moment
      ⟨"HEAD", "/channels/00000000-0000-0000-0000-000000000000/events", none, [], false⟩ with
  | error e =>
    rw [hserve] at hok
    cases hok
  | ok q =>
    refine ⟨s, q.1, q.2, hs, hserve, fun hacc => ?_⟩
    refine (request_accountable_iff hs ?_ hserve).mp hacc ⟨rfl, c, hc, fun he => ?_⟩
    · rintro ⟨raw, -, hm⟩
      exact absurd hm (by decide)
    · rw [(Fifo.isEmpty_iff c.events).mpr he] at hne
      cases hne

end Session

end EventBroker
