import EventBroker.Proofs.AlikeChannels
import EventBroker.Proofs.ApiDeeds

/-! # Requests to brokers that look alike

A request is for a channel that is set apart, or it takes a census of channels or subscribers, or it
opens a stream, or it is none of these. The first leaves a broker as it was to all others
(`serve_unnoticed`), the second changes nothing (`serve_census`), and one that is none of these is
answered the same by brokers that are alike and leaves them alike (`serve_agree`).
-/
set_option autoImplicit false

namespace EventBroker

namespace Api
open Broker

/-! ## Kinds of requests -/

/-- Whether a resource is one of the channels set apart. -/
def Resource.isApart (apart : ChannelId → Bool) : Resource → Bool
  | .channel raw | .channelEvents raw => (channelNamed? raw).any apart
  | _ => false

/-- Whether the resource tells which channels there are, or how many subscribers. -/
def Resource.isCensus : Resource → Verb → Bool
  | .connections, .get | .channels, .get => true
  | _, _ => false

/-- Whether a request is for a channel that is set apart, whatever it wants of it. -/
def isApart (apart : ChannelId → Bool) (req : Http.Request) : Bool :=
  (Resource.ofPath? req.path).any (·.isApart apart)

def isCensus (req : Http.Request) : Bool :=
  (Resource.ofPath? req.path).any fun resource =>
    (resource.verb? req.method).any resource.isCensus

/-- The category whose stream a request opens. -/
def opens? (req : Http.Request) : Option String :=
  match Resource.ofPath? req.path with
  | some (.stream raw) =>
    if req.method = "GET" ∧ req.upgrade = true then Percent.decodeText? raw else none
  | _ => none

variable {apart : ChannelId → Bool} {b b' : Broker} {fresh : FreshIds} {m : Moment}
  {req : Http.Request} {resource : Resource} {verb : Verb}

/-! ## Encoding -/

theorem agree_respond {α : Type} {refuse : BrokerError → Http.Response}
    {accept : α → Http.Response} {outcome outcome' : Outcome α}
    (h : Agree apart b b' outcome outcome') :
    Agree apart b b' (respond refuse accept outcome) (respond refuse accept outcome') := by
  obtain ⟨result, b₁⟩ := outcome
  obtain ⟨result', b₁'⟩ := outcome'
  obtain rfl : result = result' := h.answer
  cases result with
  | ok a => exact ⟨rfl, h.alike, h.gateway, h.gateway'⟩
  | error e => exact ⟨rfl, h.alike, h.gateway, h.gateway'⟩

theorem agree_withBody {α : Type} (h : Alike apart b b') {decode : Json.Decoder α}
    {run run' : α → Http.Response × Broker} (hr : ∀ a, Agree apart b b' (run a) (run' a)) :
    Agree apart b b' (withBody b decode req run) (withBody b' decode req run') := by
  unfold withBody
  split
  · exact h.agree _
  · exact hr _

theorem agree_withName (h : Alike apart b b') {parameter raw : String}
    {run run' : String → Http.Response × Broker}
    (hr : ∀ name, Agree apart b b' (run name) (run' name)) :
    Agree apart b b' (withName parameter raw (·, b) run) (withName parameter raw (·, b') run') := by
  unfold withName
  split
  · exact h.agree _
  · exact hr _

/-- A request for a channel that is not set apart. -/
theorem agree_withChannel (h : Alike apart b b') {parameter raw : String}
    {run run' : ChannelId → Http.Response × Broker} (ha : (channelNamed? raw).any apart = false)
    (hr : ∀ id, apart id = false → Agree apart b b' (run id) (run' id)) :
    Agree apart b b' (withName parameter raw (·, b) fun text => withChannel b text run)
      (withName parameter raw (·, b') fun text => withChannel b' text run') := by
  unfold channelNamed? at ha
  unfold withName
  cases hd : Percent.decodeText? raw with
  | none => exact h.agree _
  | some text =>
    rw [hd, Option.bind_some] at ha
    simp only [withChannel]
    cases hp : ChannelId.parse? text with
    | none => exact h.agree _
    | some id =>
      rw [hp] at ha
      exact hr id ha

/-- A request for a channel that is set apart comes to that channel. -/
theorem withChannel_apart {parameter raw : String} {run : ChannelId → Http.Response × Broker}
    (ha : (channelNamed? raw).any apart = true) : ∃ id, apart id = true ∧
      (withName parameter raw (·, b) fun text => withChannel b text run) = run id := by
  unfold channelNamed? at ha
  unfold withName
  cases hd : Percent.decodeText? raw with
  | none =>
    rw [hd] at ha
    cases ha
  | some text =>
    rw [hd, Option.bind_some] at ha
    simp only [withChannel]
    cases hp : ChannelId.parse? text with
    | none =>
      rw [hp] at ha
      cases ha
    | some id =>
      rw [hp] at ha
      exact ⟨id, ha, rfl⟩

theorem createQueue_agree (h : Alike apart b b') (id : String) :
    Agree apart b b' (createQueue b id) (createQueue b' id) := by
  have hc := h.createQueue id
  unfold createQueue
  generalize b.createQueue id = outcome at hc ⊢
  generalize b'.createQueue id = outcome' at hc ⊢
  obtain ⟨result, b₁⟩ := outcome
  obtain ⟨result', b₁'⟩ := outcome'
  obtain rfl : result = result' := hc.answer
  cases result with
  | error e => exact ⟨rfl, hc.alike, hc.gateway, hc.gateway'⟩
  | ok isNew =>
    have hg := hc.alike.getQueue id
    exact ⟨hg.answer, hg.alike, hg.gateway.trans hc.gateway, hg.gateway'.trans hc.gateway'⟩

/-! ## Resources -/

theorem answer_agree (h : Alike apart b b') (ha : resource.isApart apart = false)
    (hc : resource.isCensus verb = false) (fresh : FreshIds) (m : Moment) (req : Http.Request) :
    Option.Rel (Agree apart b b') (answer b fresh m req resource verb)
      (answer b' fresh m req resource verb) := by
  cases resource with
  | health | description =>
    cases verb with
    | get => exact .some (h.agree _)
    | _ => exact .none
  | connections =>
    cases verb with
    | get => cases hc
    | _ => exact .none
  | queues =>
    cases verb with
    | get =>
      simp only [answer, h.listQueues]
      exact .some (h.agree _)
    | post => exact .some (agree_withBody h fun body => agree_respond (createQueue_agree h body.id))
    | delete => exact .none
  | queue raw =>
    cases verb with
    | get => exact .some (agree_withName h fun id => agree_respond (h.getQueue id))
    | delete => exact .some (agree_withName h fun id => agree_respond (h.deleteQueue id))
    | post => exact .none
  | events =>
    cases verb with
    | post =>
      exact .some (agree_withBody h fun body => agree_respond (h.submit fresh.event body.toEvent))
    | _ => exact .none
  | channels =>
    cases verb with
    | get => cases hc
    | post =>
      exact .some (agree_withBody h fun body =>
        agree_respond (h.createChannel fresh.channel body.queues body.bufferOptions m))
    | delete => exact .none
  | channel raw =>
    cases verb with
    | get =>
      exact .some (agree_withChannel h ha fun id hid => agree_respond (h.getChannel hid m))
    | delete =>
      exact .some (agree_withChannel h ha fun id hid => agree_respond (h.deleteChannel hid))
    | post => exact .none
  | channelEvents raw =>
    cases verb with
    | get => exact .some (agree_withChannel h ha fun id hid => agree_respond (h.dequeue hid m))
    | _ => exact .none
  | stream raw => cases verb <;> exact .none

theorem answer_census (hc : resource.isCensus verb = true) :
    ∃ r, answer b fresh m req resource verb = some (r, b) := by
  cases resource with
  | connections | channels =>
    cases verb with
    | get => exact ⟨_, rfl⟩
    | _ => cases hc
  | _ => cases verb <;> cases hc

/-- Whoever asks for a channel that is set apart goes unnoticed. -/
theorem answer_unnoticed (hd : b.Distinct) (ha : resource.isApart apart = true)
    {outcome : Http.Response × Broker} (h : answer b fresh m req resource verb = some outcome) :
    Unnoticed apart b outcome.2 := by
  cases resource with
  | channel raw =>
    cases verb with
    | get =>
      obtain ⟨id, hid, he⟩ := withChannel_apart ha
      rw [← Option.some.inj h, he, respond_broker]
      exact hd.getChannel_unnoticed hid m
    | delete =>
      obtain ⟨id, hid, he⟩ := withChannel_apart ha
      rw [← Option.some.inj h, he, respond_broker]
      exact hd.deleteChannel_unnoticed hid
    | post => cases h
  | channelEvents raw =>
    cases verb with
    | get =>
      obtain ⟨id, hid, he⟩ := withChannel_apart ha
      rw [← Option.some.inj h, he, respond_broker]
      exact hd.dequeue_unnoticed hid m
    | _ => cases h
  | _ => cases ha

/-! ## Requests -/

theorem serve_unnoticed (hd : b.Distinct) (ha : isApart apart req = true) (fresh : FreshIds)
    (m : Moment) :
    ∃ r b₁, serve b fresh m req = .ok (.response r, b₁) ∧ Unnoticed apart b b₁ := by
  obtain ⟨resource, hpath, happ⟩ := (Option.any_eq_true _ _).mp ha
  have hs : ∀ raw, resource ≠ .stream raw := by
    rintro raw rfl
    cases happ
  cases hv : resource.verb? req.method with
  | none => exact ⟨_, b, serve_of_noVerb hpath hv, .refl apart b⟩
  | some verb =>
    cases hans : answer b fresh m req resource verb with
    | none => exact ⟨_, b, serve_of_unanswered hpath hv hs hans, .refl apart b⟩
    | some outcome =>
      exact ⟨_, outcome.2, serve_of_answer hpath hv hans, answer_unnoticed hd happ hans⟩

theorem serve_census (hc : isCensus req = true) (b : Broker) (fresh : FreshIds) (m : Moment) :
    ∃ r, serve b fresh m req = .ok (.response r, b) := by
  obtain ⟨resource, hpath, hcensus⟩ := (Option.any_eq_true _ _).mp hc
  obtain ⟨verb, hv, hcensus⟩ := (Option.any_eq_true _ _).mp hcensus
  obtain ⟨r, hans⟩ := answer_census (b := b) (m := m) hcensus
  exact ⟨_, serve_of_answer hpath hv hans⟩

theorem serve_opens {category : String} (ho : opens? req = some category) :
    serve b fresh m req = (b.subscribe category).map fun (s, b) => (.stream s, b) := by
  unfold opens? at ho
  split at ho
  · next raw hpath =>
    split at ho
    · next h =>
      obtain ⟨hget, hup⟩ := h
      have hv : (Resource.stream raw).verb? req.method = some .get := by rw [hget]; rfl
      rw [serve_of_stream hpath hv, openStream, if_neg (not_not.mpr hget), if_neg (by simp [hup])]
      simp only [withName, ho]
      cases b.subscribe category <;> rfl
    · cases ho
  · cases ho

/-- A request for a stream that opens none is refused. -/
theorem serve_of_unopened {raw : String} (hpath : Resource.ofPath? req.path = some (.stream raw))
    (ho : opens? req = none) : ∃ r, ∀ b fresh m, serve b fresh m req = .ok (.response r, b) := by
  cases hv : (Resource.stream raw).verb? req.method with
  | none => exact ⟨_, fun b fresh m => serve_of_noVerb hpath hv⟩
  | some verb =>
    obtain rfl : verb = .get := by
      simpa [Resource.verbs] using List.mem_of_find?_eq_some hv
    have hr : ∃ r, ∀ b, openStream b req raw = .ok (.response r, b) := by
      by_cases hget : req.method = "GET"
      · by_cases hup : req.upgrade = true
        · simp only [opens?, hpath, hget, hup, and_self, if_true] at ho
          have hn : ∀ (refuse : Http.Response → Except Crash (Reply × Broker))
              (run : String → Except Crash (Reply × Broker)),
              withName "category" raw refuse run = refuse _ := fun refuse run => by
            rw [withName, ho]
          exact ⟨_, fun b => (if_neg (not_not.mpr hget)).trans
            ((if_neg (by simp [hup])).trans (hn _ _))⟩
        · exact ⟨_, fun b => (if_neg (not_not.mpr hget)).trans (if_pos (by simp [hup]))⟩
      · exact ⟨_, fun b => if_pos hget⟩
    obtain ⟨r, hr⟩ := hr
    refine ⟨forMethod req.method r, fun b fresh m => ?_⟩
    rw [serve_of_stream hpath hv, hr]
    rfl

theorem serve_agree (h : Alike apart b b') (ha : isApart apart req = false)
    (hc : isCensus req = false) (ho : opens? req = none) (fresh : FreshIds) (m : Moment) :
    ∃ r b₁ b₁',
      serve b fresh m req = .ok (.response r, b₁) ∧
      serve b' fresh m req = .ok (.response r, b₁') ∧ Agree apart b b' (r, b₁) (r, b₁') := by
  cases hpath : Resource.ofPath? req.path with
  | none => exact ⟨_, b, b', serve_of_noPath hpath, serve_of_noPath hpath, h.agree _⟩
  | some resource =>
    simp only [isApart, isCensus, hpath, Option.any_some] at ha hc
    by_cases hs : ∃ raw, resource = .stream raw
    · obtain ⟨raw, rfl⟩ := hs
      obtain ⟨r, hr⟩ := serve_of_unopened hpath ho
      exact ⟨r, b, b', hr b fresh m, hr b' fresh m, h.agree _⟩
    have hs' : ∀ raw, resource ≠ .stream raw := fun raw he => hs ⟨raw, he⟩
    cases hv : resource.verb? req.method with
    | none => exact ⟨_, b, b', serve_of_noVerb hpath hv, serve_of_noVerb hpath hv, h.agree _⟩
    | some verb =>
      rw [hv, Option.any_some] at hc
      have hrel := answer_agree h ha hc fresh m req
      cases hans : answer b fresh m req resource verb with
      | none =>
        cases hans' : answer b' fresh m req resource verb with
        | none =>
          exact ⟨_, b, b', serve_of_unanswered hpath hv hs' hans,
            serve_of_unanswered hpath hv hs' hans', h.agree _⟩
        | some outcome' =>
          rw [hans, hans'] at hrel
          cases hrel
      | some outcome =>
        cases hans' : answer b' fresh m req resource verb with
        | none =>
          rw [hans, hans'] at hrel
          cases hrel
        | some outcome' =>
          rw [hans, hans'] at hrel
          cases hrel with
          | some hagree =>
            have hserve' := serve_of_answer hpath hv hans'
            rw [← hagree.answer] at hserve'
            exact ⟨_, outcome.2, outcome'.2, serve_of_answer hpath hv hans, hserve',
              rfl, hagree.alike, hagree.gateway, hagree.gateway'⟩

theorem isApart_of_none (req : Http.Request) : isApart (fun _ => false) req = false := by
  unfold isApart
  cases Resource.ofPath? req.path with
  | none => rfl
  | some resource => cases resource <;> simp [Resource.isApart]

/-- Only who opens a stream gets one. -/
theorem opens?_of_stream {sub : Subscription}
    (h : serve b fresh m req = .ok (.stream sub, b')) :
    ∃ category, opens? req = some category ∧ b.subscribe category = .ok (sub, b') := by
  cases ho : opens? req with
  | some category =>
    rw [serve_opens ho] at h
    obtain ⟨⟨sub', b''⟩, hsub, he⟩ := Session.map_eq_ok_iff.mp h
    cases he
    exact ⟨category, rfl, hsub⟩
  | none =>
    by_cases hc : isCensus req = true
    · obtain ⟨r, hserve⟩ := serve_census hc b fresh m
      rw [hserve] at h
      cases h
    · rw [Bool.not_eq_true] at hc
      obtain ⟨r, b₁, -, hserve, -⟩ :=
        serve_agree (.refl _ b) (isApart_of_none req) hc ho fresh m
      rw [hserve] at h
      cases h

end Api

end EventBroker
