import EventBroker.Json.Identifier
import EventBroker.Proofs.Records
import EventBroker.Proofs.SessionRuns
import EventBroker.Proofs.Spellings
import EventBroker.Proofs.Targets

/-! # Channels by any spelling

A request names a channel in its path. `http_canonical` says that only the identifier counts, not
how it is spelled, and `http_missing` what is said about a channel that is not there: the canonical
spelling of an identifier, and any other text as it was sent.
-/
set_option autoImplicit false

namespace EventBroker
open Api

/-! ## Paths -/

namespace Api.Resource

/-- A channel, or its events. -/
def ofChannel (events : Bool) (raw : String) : Resource :=
  if events then .channelEvents raw else .channel raw

/-- The path of a channel, or of its events. -/
def channelPath (events : Bool) (name : String) : String :=
  "/channels/" ++ name ++ if events then "/events" else ""

theorem segments?_channelPath {name : String} (h : '/' ∉ name.toList) (events : Bool) :
    segments? (channelPath events name) =
      some ("channels" :: name :: if events then ["events"] else []) := by
  have hlist : (channelPath events name).toList =
      '/' :: ("channels".toList ++ '/' :: (name.toList ++
        if events then '/' :: "events".toList else [])) := by
    rw [channelPath, String.toList_append, String.toList_append]
    cases events <;> rfl
  have hevents : splitSlashes "events".toList = ["events".toList] :=
    splitSlashes_of_noSlash (by decide)
  have hchannels : '/' ∉ "channels".toList := by decide
  rw [segments?, hlist]
  cases events
  · simp only [Bool.false_eq_true, if_false, List.append_nil, splitSlashes_append hchannels,
      splitSlashes_of_noSlash h, List.map_cons, List.map_nil, String.ofList_toList]
  · simp only [if_true, splitSlashes_append hchannels, splitSlashes_append h, hevents,
      List.map_cons, List.map_nil, String.ofList_toList]

theorem ofPath?_channelPath {name : String} {events : Bool} (h : '/' ∉ name.toList)
    (hne : name ≠ "" ∨ events = true) :
    ofPath? (channelPath events name) = some (ofChannel events name) := by
  rw [ofPath?, segments?_channelPath h]
  cases events
  · have hname : name ≠ "" := hne.resolve_right Bool.false_ne_true
    simp only [Bool.false_eq_true, if_false, Option.bind_some, ofSegments?, named, if_neg hname,
      ofChannel]
  · rfl

end Api.Resource

/-! ## Texts that stand in a path as they are -/

/-- A character that stands in a path for itself. -/
def Plain (c : Char) : Prop :=
  c.toNat < 128 ∧ Http.isPathChar c = true ∧ c ≠ '?' ∧ c ≠ '/' ∧ c ≠ '%'

instance (c : Char) : Decidable (Plain c) := inferInstanceAs (Decidable (_ ∧ _))

/-- Capital letters are plain. -/
theorem plain_of_toLower {c : Char} (h : Plain c.toLower) : Plain c := by
  rcases Url.toLower_cases c with hc | ⟨hlow, hhigh, -⟩
  · rwa [hc] at h
  · have hcapital : ∀ n : Fin 128, 0x41 ≤ n.val ∧ n.val ≤ 0x5A → Plain (Char.ofNat n.val) := by
      decide
    have hplain := hcapital ⟨c.toNat, by omega⟩ ⟨hlow, hhigh⟩
    rwa [Char.ofNat_toNat] at hplain

theorem Grouped.plain {ns : List Nat} {ds t : List Char} (h : Grouped ns ds t)
    (hds : ∀ c ∈ ds, Plain c) : ∀ c ∈ t, Plain c := by
  induction h with
  | last => exact hds
  | more _ _ ih =>
    rw [List.forall_mem_append] at hds ⊢
    refine ⟨hds.1, ?_⟩
    rw [List.forall_mem_cons]
    exact ⟨by decide, ih hds.2⟩

theorem Spelling.plain {isScheme : List Char → Prop} {ds t : List Char}
    (h : Spelling isScheme ds t) (hscheme : ∀ scheme, isScheme scheme → ∀ c ∈ scheme, Plain c)
    (hds : ∀ c ∈ ds, Plain c) : ∀ c ∈ t, Plain c := by
  obtain - | h | h | ⟨hs, h⟩ := h
  · exact hds
  · exact h.plain hds
  · rw [List.forall_mem_cons, List.forall_mem_append, List.forall_mem_singleton]
    exact ⟨by decide, h.plain hds, by decide⟩
  · rw [List.forall_mem_append]
    exact ⟨hscheme _ hs, h.plain hds⟩

theorem Spelling.length_le {isScheme : List Char → Prop} {ds t : List Char} {k : Nat}
    (h : Spelling isScheme ds t) (hscheme : ∀ scheme, isScheme scheme → scheme.length ≤ k) :
    t.length ≤ 38 + k := by
  obtain hlen | h | h | ⟨hs, h⟩ := h
  · omega
  · rw [h.length_text]
    omega
  · simp only [List.length_cons, List.length_append, List.length_nil, h.length_text]
    omega
  · have hk := hscheme _ hs
    rw [List.length_append, h.length_text]
    omega

namespace Uuid

theorem IsUrn.plain {scheme : List Char} (h : IsUrn scheme) : ∀ c ∈ scheme, Plain c := by
  intro c hc
  have hlower : c.toLower ∈ urnScheme := by
    rw [← show scheme.map Char.toLower = urnScheme from h]
    exact List.mem_map_of_mem hc
  have hall : urnScheme.all (fun c => decide (Plain c)) = true := by decide
  exact plain_of_toLower (of_decide_eq_true (List.all_eq_true.mp hall _ hlower))

/-- What is read as an identifier stands in a path as it is. -/
theorem plain_of_parse? {t : List Char} {u : Uuid} (h : parse? t = some u) :
    ∀ c ∈ t, Plain c := by
  obtain ⟨ds, hspelling, hds⟩ := parse?_eq_some_iff.mp h
  refine hspelling.plain (fun _ => IsUrn.plain) fun c hc => ?_
  have hlower : c.toLower ∈ u.simple := by
    rw [← hds]
    exact List.mem_map_of_mem hc
  obtain ⟨d, -, hd⟩ := List.mem_map.mp hlower
  have hdigits : ∀ d : Fin 16, Plain (Hex.digit d) := by decide
  exact plain_of_toLower (hd ▸ hdigits d)

theorem length_le_of_parse? {t : List Char} {u : Uuid} (h : parse? t = some u) : t.length ≤ 47 := by
  obtain ⟨ds, hspelling, -⟩ := parse?_eq_some_iff.mp h
  exact hspelling.length_le fun _ hs => hs.length_eq.le

end Uuid

theorem Percent.decodeText?_of_plain {text : String} (h : ∀ c ∈ text.toList, Plain c) :
    decodeText? text = some text := by
  have hcode : ∀ c ∈ text.toList, encodeChar (· == '%') c = [c] := by
    intro c hc
    obtain ⟨hascii, -, -, -, hpercent⟩ := h c hc
    rw [encodeChar, if_pos ⟨hascii, beq_false_of_ne hpercent⟩]
  have hencode : encode (· == '%') text.toList = text.toList := by
    rw [encode, List.flatMap_congr hcode, List.flatMap_singleton']
  have hdecode := @decodeText?_encode (· == '%') rfl text
  rwa [hencode, String.ofList_toList] at hdecode

theorem utf8ByteSize_le (text : String) : text.utf8ByteSize ≤ 4 * text.toList.length := by
  rw [← String.ofList_toList (s := text), String.toList_ofList]
  induction text.toList with
  | nil => simp
  | cons c cs ih =>
    rw [String.ofList_cons, String.utf8ByteSize_append, String.utf8ByteSize_singleton,
      List.length_cons]
    have := c.utf8Size_le_four
    omega

/-- A path with an identifier in it is a target that leads to itself. -/
theorem Http.pathOf?_channelPath {text : String} {u : Uuid} (h : Uuid.parse? text.toList = some u)
    (events : Bool) :
    pathOf? (Resource.channelPath events text) = some (Resource.channelPath events text) := by
  obtain ⟨path, hpath, hchars, hlen⟩ : ∃ path : List Char,
      (Resource.channelPath events text).toList = '/' :: path ∧
        (∀ c ∈ path, isPathChar c = true ∧ c ≠ '?') ∧ path.length ≤ 63 := by
    refine ⟨"channels/".toList ++ text.toList ++ if events then "/events".toList else [], ?_, ?_, ?_⟩
    · rw [Resource.channelPath, String.toList_append, String.toList_append]
      cases events <;> rfl
    · have hfixed (p : List Char) (hp : p.all fun c => isPathChar c && c != '?') :
          ∀ c ∈ p, isPathChar c = true ∧ c ≠ '?' := by
        simpa using hp
      rw [List.forall_mem_append, List.forall_mem_append]
      refine ⟨⟨hfixed _ (by decide), fun c hc => ?_⟩, hfixed _ (by cases events <;> decide)⟩
      obtain ⟨-, hc, hquery, -⟩ := Uuid.plain_of_parse? h c hc
      exact ⟨hc, hquery⟩
    · have htext := Uuid.length_le_of_parse? h
      rw [List.length_append, List.length_append]
      cases events <;> simp <;> omega
  have hsize : (Resource.channelPath events text).utf8ByteSize ≤ maxTargetBytes := by
    refine (utf8ByteSize_le _).trans ?_
    rw [hpath, List.length_cons, maxTargetBytes]
    omega
  have hquery : ∀ q ∈ (none : Option String), ∀ c ∈ q.toList, isQueryChar c = true :=
    fun _ hq => nomatch hq
  have hread := pathOf?_append hchars hquery
  rw [← hpath, String.ofList_toList] at hread
  simpa [Nat.not_lt.mpr hsize] using hread

/-! ## Requests -/

/-- A request for the channel that a text names, or for its events. The text stands in the path,
percent-coded or not. -/
def RawRequest.AsksFor (r : RawRequest) (events : Bool) (text : String) : Prop :=
  ∃ raw : String, Http.pathOf? r.target = some (Resource.channelPath events raw) ∧
    '/' ∉ raw.toList ∧ (raw ≠ "" ∨ events = true) ∧ Percent.decodeText? raw = some text

/-- Whether a request reads or deletes a channel, or reads its events, and can be sent. -/
def RawRequest.isFor (r : RawRequest) (events : Bool) : Bool :=
  (r.method == "GET" || (r.method == "DELETE" && !events)) && r.contentType.all Http.isHeaderText

/-- A spelling of an identifier may be sent as it is. -/
theorem RawRequest.asksFor_spelling {text : String} {id : ChannelId}
    (h : ChannelId.parse? text = some id) (r : RawRequest) (events : Bool) :
    { r with target := Resource.channelPath events text }.AsksFor events text := by
  obtain ⟨u, hu, -⟩ := Option.map_eq_some_iff.mp h
  refine ⟨text, Http.pathOf?_channelPath hu events, fun hslash => ?_, .inl ?_,
    Percent.decodeText?_of_plain (Uuid.plain_of_parse? hu)⟩
  · exact (Uuid.plain_of_parse? hu '/' hslash).2.2.2.1 rfl
  · rintro rfl
    cases hu

namespace Session

theorem request?_of_pathOf? {r : RawRequest} {path : String}
    (h : Http.pathOf? r.target = some path) (upgrade : Bool) :
    request? r upgrade =
      if Http.isMethod r.method && r.contentType.all Http.isHeaderText then
        some ⟨r.method, path, r.contentType, r.body, upgrade⟩
      else none := by
  rw [request?, h]

end Session

namespace Api

theorem withName_of_named {b : Broker} {raw : String} {id : ChannelId}
    (h : channelNamed? raw = some id) (run : ChannelId → Http.Response × Broker) :
    (withName "channel_id" raw (·, b) fun text => withChannel b text run) = run id := by
  obtain ⟨text, hdecode, hparse⟩ := Option.bind_eq_some_iff.mp h
  simp only [withName, hdecode, withChannel, hparse]

theorem withName_congr {b : Broker} {raw raw' : String} {id : ChannelId}
    (h : channelNamed? raw = some id) (h' : channelNamed? raw' = some id)
    (run : ChannelId → Http.Response × Broker) :
    (withName "channel_id" raw (·, b) fun text => withChannel b text run) =
      withName "channel_id" raw' (·, b) fun text => withChannel b text run := by
  rw [withName_of_named h, withName_of_named h']

/-- Of the name in the path of a channel only the identifier counts. -/
theorem serve_channel_eq {b : Broker} {fresh : FreshIds} {m : Moment} {req req' : Http.Request}
    {events : Bool} {raw raw' : String} {id : ChannelId} (hm : req.method = req'.method)
    (hp : Resource.ofPath? req.path = some (.ofChannel events raw))
    (hp' : Resource.ofPath? req'.path = some (.ofChannel events raw'))
    (h : channelNamed? raw = some id) (h' : channelNamed? raw' = some id) :
    serve b fresh m req = serve b fresh m req' := by
  have hanswer (verb : Verb) : answer b fresh m req (.ofChannel events raw) verb =
      answer b fresh m req' (.ofChannel events raw') verb := by
    cases events <;> cases verb
    all_goals first
      | rfl
      | exact congrArg some (withName_congr h h' _)
  have hverb : (Resource.ofChannel events raw).verb? req'.method =
      (Resource.ofChannel events raw').verb? req'.method := by
    cases events <;> rfl
  have hallow : notAllowed (.ofChannel events raw) = notAllowed (.ofChannel events raw') := by
    cases events <;> rfl
  have hnoStream (name raw : String) : Resource.ofChannel events name ≠ .stream raw := by
    cases events <;> exact Resource.noConfusion
  cases hv : (Resource.ofChannel events raw').verb? req'.method with
  | none =>
    rw [serve_of_noVerb hp (by rw [hm, hverb, hv]), serve_of_noVerb hp' hv, hallow]
  | some verb =>
    have hv' : (Resource.ofChannel events raw).verb? req.method = some verb := by
      rw [hm, hverb, hv]
    cases ha : answer b fresh m req' (.ofChannel events raw') verb with
    | none =>
      rw [serve_of_unanswered hp hv' (hnoStream raw) (by rw [hanswer, ha]),
        serve_of_unanswered hp' hv (hnoStream raw') ha, hallow]
    | some q =>
      rw [serve_of_answer hp hv' (by rw [hanswer, ha]), serve_of_answer hp' hv ha, hm]

end Api

/-- The name under which a channel is reported missing: its identifier as it is written, or else the
text that was to be one. -/
def Broker.missing? (b : Broker) (text : String) : Option String :=
  match ChannelId.parse? text with
  | none => some text
  | some id => if (b.channel? id).isNone then some id.toText else none

namespace Api

/-- What is asked of a channel that is missing is refused with its name, and changes nothing. -/
theorem withName_missing {b : Broker} {raw text shown : String}
    (hdecode : Percent.decodeText? raw = some text) (h : b.missing? text = some shown)
    {run : ChannelId → Http.Response × Broker}
    (hrun : ∀ id, b.channel? id = none → run id = (.ofError (.channelNotFound id.toText), b)) :
    (withName "channel_id" raw (·, b) fun text => withChannel b text run) =
      (.text 404 (shown ++ " channel does not exist"), b) := by
  simp only [withName, hdecode, withChannel]
  unfold Broker.missing? at h
  cases hparse : ChannelId.parse? text with
  | none =>
    rw [hparse] at h
    obtain rfl := Option.some.inj h
    rfl
  | some id =>
    rw [hparse] at h
    obtain ⟨hnone, h⟩ := Option.ite_none_right_eq_some.mp h
    obtain rfl := Option.some.inj h
    exact hrun id (Option.isNone_iff_eq_none.mp hnone)

theorem serve_missing {b : Broker} {fresh : FreshIds} {m : Moment} {req : Http.Request}
    {events : Bool} {raw text shown : String}
    (hp : Resource.ofPath? req.path = some (.ofChannel events raw))
    (hdecode : Percent.decodeText? raw = some text) (h : b.missing? text = some shown)
    (hm : req.method = "GET" ∨ req.method = "DELETE" ∧ events = false) :
    serve b fresh m req = .ok (.response (.text 404 (shown ++ " channel does not exist")), b) := by
  have hget (id : ChannelId) (hid : b.channel? id = none) :
      b.getChannel id m = (.error (.channelNotFound id.toText), b) := by
    rw [Broker.getChannel, hid]
  have hdelete (id : ChannelId) (hid : b.channel? id = none) :
      b.deleteChannel id = (.error (.channelNotFound id.toText), b) := by
    rw [Broker.deleteChannel, hid]
  have hdequeue (id : ChannelId) (hid : b.channel? id = none) :
      b.dequeue id m = (.error (.channelNotFound id.toText), b) := by
    rw [Broker.dequeue, hid]
  obtain ⟨verb, hverb, hanswer⟩ : ∃ verb,
      (Resource.ofChannel events raw).verb? req.method = some verb ∧
        answer b fresh m req (.ofChannel events raw) verb =
          some (.text 404 (shown ++ " channel does not exist"), b) := by
    rcases hm with hm | ⟨hm, rfl⟩
    · refine ⟨.get, by rw [hm]; cases events <;> rfl, ?_⟩
      cases events
      · exact congrArg some (withName_missing hdecode h fun id hid => by rw [hget id hid]; rfl)
      · exact congrArg some (withName_missing hdecode h fun id hid => by rw [hdequeue id hid]; rfl)
    · refine ⟨.delete, by rw [hm]; rfl, ?_⟩
      exact congrArg some (withName_missing hdecode h fun id hid => by rw [hdelete id hid]; rfl)
  have hhead : req.method ≠ "HEAD" := by
    rcases hm with hm | ⟨hm, -⟩ <;> rw [hm] <;> decide
  rw [serve_of_answer hp hverb hanswer, forMethod, if_neg hhead]

end Api

namespace Session

variable {r : RawRequest} {events : Bool} {text : String} {id : ChannelId}

/-- A request for a channel is answered as the one that names it by its identifier as it is written.
-/
theorem http_canonical (s : Session) (h : r.AsksFor events text)
    (hid : ChannelId.parse? text = some id) :
    s.http r = s.http { r with target := Api.Resource.channelPath events id.toText } := by
  obtain ⟨raw, hpath, hslash, hne, hdecode⟩ := h
  obtain ⟨raw', hpath', hslash', hne', hdecode'⟩ :=
    r.asksFor_spelling id.parse?_toText events
  have hraw : Api.channelNamed? raw = some id := by rw [Api.channelNamed?, hdecode]; exact hid
  have hraw' : Api.channelNamed? raw' = some id := by
    rw [Api.channelNamed?, hdecode']
    exact id.parse?_toText
  have hserve : Api.serve s.broker s.fresh s.moment
        ⟨r.method, Api.Resource.channelPath events raw, r.contentType, r.body, false⟩ =
      Api.serve s.broker s.fresh s.moment
        ⟨r.method, Api.Resource.channelPath events raw', r.contentType, r.body, false⟩ :=
    Api.serve_channel_eq rfl (Resource.ofPath?_channelPath hslash hne)
      (Resource.ofPath?_channelPath hslash' hne') hraw hraw'
  by_cases hsent : (Http.isMethod r.method && r.contentType.all Http.isHeaderText) = true
  · simp only [http, request?_of_pathOf? hpath, request?_of_pathOf? hpath', if_pos hsent, hserve]
  · simp only [http, request?_of_pathOf? hpath, request?_of_pathOf? hpath', if_neg hsent]

/-- A request for a channel that is missing is answered with its name, and changes nothing. -/
theorem http_missing {shown : String} (s : Session) (h : r.AsksFor events text)
    (hr : r.isFor events = true) (hmissing : s.broker.missing? text = some shown) :
    s.http r = .ok (.response (.text 404 (shown ++ " channel does not exist")), s) := by
  obtain ⟨raw, hpath, hslash, hne, hdecode⟩ := h
  simp only [RawRequest.isFor, Bool.and_eq_true, Bool.or_eq_true, beq_iff_eq,
    Bool.not_eq_true'] at hr
  obtain ⟨hm, hheader⟩ := hr
  have hmethod : Http.isMethod r.method = true := by
    rcases hm with hm | ⟨hm, -⟩
    · rw [hm]
      decide
    · rw [hm]
      decide
  have hreq : request? r false =
      some ⟨r.method, Api.Resource.channelPath events raw, r.contentType, r.body, false⟩ := by
    rw [request?_of_pathOf? hpath, if_pos (by rw [hmethod, hheader]; rfl)]
  have hserve : Api.serve s.broker s.fresh s.moment
      ⟨r.method, Api.Resource.channelPath events raw, r.contentType, r.body, false⟩ =
        .ok (.response (.text 404 (shown ++ " channel does not exist")), s.broker) :=
    Api.serve_missing (Resource.ofPath?_channelPath hslash hne) hdecode hmissing hm
  simp only [http, hreq, hserve]
  rfl

end Session

/-! ## In JSON -/

theorem Json.readWholeText_bytes (text : String) :
    readWholeText (Json.string text).bytes = some text := by
  rw [readWholeText, (means_text text).whole]
  rfl

/-! ## Every spelling -/

/-- Every spelling of an identifier means the same channel. What is read are the spellings, in any
mix of case, from a path and from JSON alike; a request in which one stands is answered, and changes
the session, as the one with the identifier as it is written; and any other text is reported back as
the name of a channel that does not exist. -/
theorem channel_spellings :
    (∀ (text : String) (id : ChannelId), ChannelId.parse? text = some id ↔
      ∃ ds, Spelling Uuid.IsUrn ds text.toList ∧ ds.map Char.toLower = id.uuid.simple) ∧
    (∀ id : ChannelId, ChannelId.parse? id.toText = some id) ∧
    (∀ (text text' : String) (id id' : ChannelId) (ds ds' : List Char),
      ChannelId.parse? text = some id → Spelling Uuid.IsUrn ds text.toList →
      ChannelId.parse? text' = some id' → Spelling Uuid.IsUrn ds' text'.toList →
      (id = id' ↔ ds.map Char.toLower = ds'.map Char.toLower)) ∧
    (∀ text : String, ChannelId.ofJson? (Json.string text).bytes = ChannelId.parse? text ∧
      EventId.ofJson? (Json.string text).bytes = EventId.parse? text) ∧
    ∀ (s : Session) (r : RawRequest) (events : Bool) (text : String),
      (∀ id, ChannelId.parse? text = some id →
        { r with target := Resource.channelPath events text }.AsksFor events text) ∧
      (r.AsksFor events text →
        (∀ id, ChannelId.parse? text = some id →
          s.act (.http r) =
              s.act (.http { r with target := Resource.channelPath events id.toText }) ∧
            (s.broker.channel? id = none → r.isFor events = true →
              s.act (.http r) =
                .ok (.response (.text 404 (id.toText ++ " channel does not exist")), s))) ∧
        (ChannelId.parse? text = none → r.isFor events = true →
          s.act (.http r) =
            .ok (.response (.text 404 (text ++ " channel does not exist")), s))) := by
  have hread {text : String} {id : ChannelId} :
      ChannelId.parse? text = some id ↔ Uuid.parse? text.toList = some id.uuid := by
    rw [ChannelId.parse?, Option.map_eq_some_iff]
    constructor
    · rintro ⟨u, hu, rfl⟩
      exact hu
    · exact fun h => ⟨_, h, rfl⟩
  refine ⟨fun text id => ?_, ChannelId.parse?_toText, fun text text' id id' ds ds' h hs h' hs' => ?_,
    fun text => ⟨?_, ?_⟩, fun s r events text => ⟨fun id hid => ?_, fun h => ⟨fun id hid => ⟨?_, ?_⟩,
      ?_⟩⟩⟩
  · rw [hread, Uuid.parse?_eq_some_iff]
  · rw [← Uuid.eq_iff_of_spelling (hread.mp h) (hread.mp h') hs hs']
    exact ⟨congrArg ChannelId.uuid, fun huuid => by cases id; cases id'; exact congrArg _ huuid⟩
  · rw [ChannelId.ofJson?, Json.readWholeText_bytes, Option.bind_some]
  · rw [EventId.ofJson?, Json.readWholeText_bytes, Option.bind_some]
  · exact RawRequest.asksFor_spelling hid r events
  · exact s.http_canonical h hid
  · intro hnone hr
    refine s.http_missing h hr ?_
    simp only [Broker.missing?, hid, hnone, Option.isNone_none, if_true]
  · intro hnone hr
    refine s.http_missing h hr ?_
    simp only [Broker.missing?, hnone]

/-- A channel that there is, read under its identifier in capital letters after a scheme. -/
theorem channel_spellings_once : ∃ (s : Session) (r : RawRequest) (text : String) (id : ChannelId),
    s.Reachable ∧ (s.broker.channel? id).isSome = true ∧ text ≠ id.toText ∧
    ChannelId.parse? text = some id ∧ r.AsksFor true text ∧
    s.act (.http r) = s.act (.http { r with target := Resource.channelPath true id.toText }) := by
  obtain ⟨b, hb⟩ : ∃ b, Broker.new {} = .ok b := ⟨_, rfl⟩
  obtain ⟨answers, s, hr, hp⟩ := Session.of_endsWith
    (r := (Session.new .counting b ⟨0, 0⟩).run
      [.createQueue "jobs", .createChannel ["jobs"] ⟨0, 1⟩])
    (p := fun _ s => (s.broker.channel? (IdSupply.counting.channel 0)).isSome)
    (by cases hb; decide +kernel)
  have hid : ChannelId.parse? "URN:UUID:00000000-0000-0000-0000-000000000000" =
      some (IdSupply.counting.channel 0) := by decide +kernel
  obtain ⟨-, -, -, -, hact⟩ := channel_spellings
  have hasks := (hact s ⟨"GET", "", none, []⟩ true _).1 _ hid
  exact ⟨s, _, _, _, ⟨_, _, b, _, _, answers, hb, hr⟩, hp, by decide +kernel, hid, hasks,
    (((hact s _ true _).2 hasks).1 _ hid).1⟩

/-- A scheme in capital letters counts as well: such a text does not come back as it was sent. -/
theorem capital_scheme_is_read : ∃ (b : Broker) (text : String), Broker.new {} = .ok b ∧
    (∀ ds, ¬ Spelling (· = "urn:uuid:".toList) ds text.toList) ∧
    (Session.new .counting b ⟨0, 0⟩).act (.http ⟨"GET", "/channels/" ++ text, none, []⟩) =
      .ok (.response (.text 404 "67e55044-10b1-426f-9247-bb680e5fe0c8 channel does not exist"),
        .new .counting b ⟨0, 0⟩) ∧
    "67e55044-10b1-426f-9247-bb680e5fe0c8 channel does not exist" ≠
      text ++ " channel does not exist" := by
  obtain ⟨b, hb⟩ : ∃ b, Broker.new {} = .ok b := ⟨_, rfl⟩
  refine ⟨b, "URN:UUID:67e55044-10b1-426f-9247-bb680e5fe0c8", hb, fun ds hs => ?_, ?_, by decide⟩
  · generalize htext : "URN:UUID:67e55044-10b1-426f-9247-bb680e5fe0c8".toList = t at hs
    have hlen : t.length = 45 := by rw [← htext]; decide
    have hhead : t.head? = some 'U' := by rw [← htext]; decide
    obtain h | h | h | ⟨rfl, h⟩ := hs
    · omega
    · have := h.length_text
      omega
    · exact absurd hhead (by simp)
    · exact absurd hhead (by simp)
  · obtain ⟨id, hid⟩ : ∃ id,
        ChannelId.parse? "URN:UUID:67e55044-10b1-426f-9247-bb680e5fe0c8" = some id := ⟨_, rfl⟩
    have hshown : b.missing? "URN:UUID:67e55044-10b1-426f-9247-bb680e5fe0c8" =
        some "67e55044-10b1-426f-9247-bb680e5fe0c8" := by
      cases hb
      decide +kernel
    exact (Session.new .counting b ⟨0, 0⟩).http_missing
      (RawRequest.asksFor_spelling hid ⟨"GET", "", none, []⟩ false) rfl hshown

end EventBroker
