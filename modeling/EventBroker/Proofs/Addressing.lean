import EventBroker.Proofs.Names
import EventBroker.Proofs.Targets
import EventBroker.Proofs.Wire

/-! # Calls that name a queue

A client writes the name of a queue into the path of a URL, and a broker reads it from the target of
a request. `Session.network` joins the two, and `queue_calls` says when they agree: always, except
for names that a URL cannot show. One dot and two dots are left out of a path, and tabs and line
breaks count for nothing in it, so a call with such a name arrives at another resource, or at the
queue whose name is the rest.
-/
set_option autoImplicit false

namespace EventBroker

/-! ## A client and a session -/

namespace Api

/-- The name of the queue that a path leads to. -/
def Resource.queueName? : Resource → Option String
  | .queue raw => Percent.decodeText? raw
  | _ => none

end Api

namespace Http

def Body.bytes : Body → List UInt8
  | .empty => []
  | .text s => Utf8.ofString s
  | .json value => value.bytes

end Http

namespace Client

/-- A request as it is sent. A URL that is too long is not sent. -/
def Request.raw? (r : Request) : Option RawRequest :=
  if Http.maxTargetBytes < r.url.toText.utf8ByteSize then none
  else some ⟨r.method, r.url.target, r.contentType, (r.body.map Json.bytes).getD []⟩

def Reply.ofResponse (r : Http.Response) : Reply := ⟨r.status, r.body.bytes⟩

end Client

namespace Session

/-- The network whose only server is the broker of a session. -/
def network (s : Session) : Client.Network := fun r =>
  match r.raw?.map s.http with
  | some (.ok (.response response, _)) => some (.ofResponse response)
  | _ => none

/-- The name of the queue that a request is routed to. -/
def queueOf? (r : RawRequest) : Option String :=
  (request? r false).bind fun req => (Api.Resource.ofPath? req.path).bind (·.queueName?)

theorem queueOf?_eq_some {r : RawRequest} {id : String} (h : queueOf? r = some id) :
    ∃ req raw, request? r false = some req ∧ Api.Resource.ofPath? req.path = some (.queue raw) ∧
      Percent.decodeText? raw = some id := by
  obtain ⟨req, hreq, h⟩ := Option.bind_eq_some_iff.mp h
  obtain ⟨resource, hresource, h⟩ := Option.bind_eq_some_iff.mp h
  cases resource with
  | queue raw => exact ⟨req, raw, hreq, hresource, h⟩
  | _ => cases h

/-- A request for a path is routed by the path, whatever query follows it. -/
theorem queueOf?_of_target {r : RawRequest} (path : List Char) (query : Option String)
    (hm : Http.isMethod r.method = true) (hct : r.contentType = none)
    (htarget : r.target = String.ofList ('/' :: path) ++ query.elim "" ("?" ++ ·))
    (hpath : ∀ c ∈ path, Http.isPathChar c = true ∧ c ≠ '?')
    (hquery : ∀ q ∈ query, ∀ c ∈ q.toList, Http.isQueryChar c = true)
    (hsize : r.target.utf8ByteSize ≤ Http.maxTargetBytes) :
    queueOf? r = (Api.Resource.ofPath? (String.ofList ('/' :: path))).bind (·.queueName?) := by
  have hread : Http.pathOf? r.target = some (String.ofList ('/' :: path)) := by
    rw [htarget] at hsize ⊢
    rw [Http.pathOf?_append hpath hquery, if_neg (by omega)]
  have hreq : request? r false =
      some ⟨r.method, String.ofList ('/' :: path), r.contentType, r.body, false⟩ := by
    simp only [request?, hread, hm, hct, Option.all_none, Bool.and_self, if_true]
  rw [queueOf?, hreq, Option.bind_some]

variable {s : Session} {r : RawRequest} {id : String} {q : Queue}

/-- A request for a queue is answered as its method wants. -/
theorem http_queue {verb : Api.Verb} {response : Http.Response} {b : Broker}
    (hr : queueOf? r = some id) (hverb : ∀ raw, (Api.Resource.queue raw).verb? r.method = some verb)
    (hhead : r.method ≠ "HEAD")
    (hanswer : ∀ req raw, Percent.decodeText? raw = some id →
      Api.answer s.broker s.fresh s.moment req (.queue raw) verb = some (response, b)) :
    s.http r = .ok (.response response, { s with broker := b }) := by
  obtain ⟨req, raw, hreq, hres, hname⟩ := queueOf?_eq_some hr
  have hserve : Api.serve s.broker s.fresh s.moment req = .ok (.response response, b) := by
    simp only [Api.serve, hres, method_of_request? hreq, hverb]
    cases verb <;> simp only [hanswer req raw hname, Api.forMethod, if_neg hhead]
  simp only [http, hreq, hserve]
  rfl

theorem http_getQueue (hr : queueOf? r = some id) (hm : r.method = "GET")
    (hq : s.broker.registry.find? id = some q) :
    s.http r = .ok (.response (.ok (Api.QueueResponse.ofInfo q.info).toJson), s) := by
  have hget : s.broker.getQueue id = (.ok q.info, s.broker) := by rw [Broker.getQueue, hq]
  have hverb (raw : String) : (Api.Resource.queue raw).verb? r.method = some .get := by
    rw [hm]
    rfl
  have hhead : r.method ≠ "HEAD" := by rw [hm]; decide
  refine http_queue hr hverb hhead fun req raw hname => ?_
  simp only [Api.answer, Api.withName, hname, hget, Api.respond]

theorem http_deleteQueue (hr : queueOf? r = some id) (hm : r.method = "DELETE")
    (hq : s.broker.registry.find? id = some q) :
    s.http r =
      .ok (.response (.empty 200), { s with broker := (s.broker.deleteQueue id).2 }) := by
  have hdelete : s.broker.deleteQueue id = (.ok (), (s.broker.deleteQueue id).2) := by
    simp only [Broker.deleteQueue, Broker.retire, hq]
  have hverb (raw : String) : (Api.Resource.queue raw).verb? r.method = some .delete := by
    rw [hm]
    rfl
  have hhead : r.method ≠ "HEAD" := by rw [hm]; decide
  refine http_queue hr hverb hhead fun req raw hname => ?_
  simp only [Api.answer, Api.withName, hname]
  rw [hdelete]
  rfl

end Session

namespace Client

/-- Whether a client was made from an HTTP URL whose path is empty or a slash. -/
structure AtRoot (c : Client) : Prop where
  made : ∃ url, Client.new url = .ok c
  scheme : c.base.scheme = "http"
  path : c.base.tail = .path [[]]

/-- The name that a call writes into its path: what is left of it without tabs and line breaks.
There is none if the URL takes the name for dots or leaves it out. -/
def written? (id : String) : Option String :=
  let seen := Url.Path.visible id.toList
  if id.toList = ['.'] ∨ id.toList = ['.', '.'] ∨ seen = [] ∨ seen = ['.'] ∨ seen = ['.', '.'] then
    none
  else some (String.ofList seen)

theorem written?_eq_self {id : String} :
    written? id = some id ↔ id ≠ "" ∧ id ≠ "." ∧ id ≠ ".." ∧
      ∀ ch ∈ id.toList, Url.Path.isSkipped ch = false := by
  have hlist (s : String) : id.toList = s.toList ↔ id = s := String.toList_inj
  have hvisible : Url.Path.visible id.toList = id.toList ↔
      ∀ ch ∈ id.toList, Url.Path.isSkipped ch = false := by
    simp [Url.Path.visible]
  rw [← hvisible, Ne, Ne, Ne, ← hlist, ← hlist, ← hlist]
  constructor
  · intro h
    simp only [written?] at h
    split at h
    · cases h
    next hseen =>
    have hself := Url.toList_of_ofList_eq (Option.some.inj h)
    rw [hself] at hseen
    simp only [not_or] at hseen
    exact ⟨hseen.2.2.1, hseen.1, hseen.2.1, hself⟩
  · rintro ⟨hempty, hdot, htwoDots, hself⟩
    simp only [written?, hself]
    rw [if_neg, String.ofList_toList]
    simp only [not_or]
    exact ⟨hdot, htwoDots, hempty, hdot, htwoDots⟩

variable {c : Client} {id : String}

theorem AtRoot.queryChar (h : c.AtRoot) {query : String} (hq : c.base.query = some query) :
    ∀ ch ∈ query.toList, Http.isQueryChar ch = true := by
  obtain ⟨url, hnew⟩ := h.made
  unfold Client.new at hnew
  split at hnew
  · cases hnew
  · next base hparse =>
    split at hnew
    · obtain rfl := Except.ok.inj hnew
      exact Url.queryChar_of_parse hparse hq
    · cases hnew

theorem AtRoot.extend (h : c.AtRoot) (id : String) :
    c.base.extend ["queues", id] =
      { c.base with tail := .path (Url.Path.push true false ["queues".toList] id.toList) } := by
  have hspecial : Url.isSpecial "http" = true := by decide
  have hfile : ("http" == "file") = false := by decide
  have hqueues : Url.Path.push true false (Url.Path.popEmpty [[]]) "queues".toList =
      ["queues".toList] := by decide
  simp only [Url.extend, h.path, h.scheme, List.foldl_cons, List.foldl_nil, hspecial, hfile,
    hqueues]

/-- The paths that a call may have, by what becomes of the name. -/
theorem push_cases (id : String) :
    (written? id = none ∧
      Url.Path.push true false ["queues".toList] id.toList ∈
        [["queues".toList], [[]], ["queues".toList, []]]) ∨
    ∃ name, written? id = some name ∧ name ≠ "" ∧
      Url.Path.push true false ["queues".toList] id.toList =
        ["queues".toList, Percent.encode (Url.codedInSegment true) name.toList] := by
  by_cases hdots : id.toList = ['.'] ∨ id.toList = ['.', '.']
  · refine .inl ⟨if_pos (hdots.imp_right .inl), ?_⟩
    rw [Url.Path.push, if_pos hdots]
    exact List.mem_cons_self
  obtain ⟨hone, htwo⟩ := not_or.mp hdots
  rw [Url.push_eq true (by decide) ⟨hone, htwo⟩]
  simp only [written?, hone, htwo, false_or]
  by_cases htwoDots : Url.Path.visible id.toList = ['.', '.']
  · refine .inl ⟨by simp [htwoDots], ?_⟩
    rw [if_pos htwoDots]
    decide
  by_cases hdot : Url.Path.visible id.toList = ['.']
  · refine .inl ⟨by simp [hdot], ?_⟩
    rw [if_neg htwoDots, if_pos hdot]
    decide
  rw [if_neg htwoDots, if_neg hdot]
  by_cases hnil : Url.Path.visible id.toList = []
  · refine .inl ⟨by simp [hnil], ?_⟩
    rw [hnil]
    decide
  · refine .inr ⟨String.ofList (Url.Path.visible id.toList), ?_, ?_, ?_⟩
    · rw [if_neg]
      simp [hnil, hdot, htwoDots]
    · intro hempty
      exact hnil (by rw [← String.toList_ofList (l := Url.Path.visible id.toList), hempty]; rfl)
    · rw [String.toList_ofList (l := Url.Path.visible id.toList)]
      rfl

theorem target_le (u : Url) : u.target.utf8ByteSize ≤ u.toText.utf8ByteSize := by
  simp only [Url.toText, String.utf8ByteSize_append]
  omega

/-- A request below the root is routed by the path that its name becomes. -/
theorem AtRoot.queueOf?_path {α : Type} {call : Call α} (h : c.AtRoot)
    (hsegments : call.segments = ["queues", id]) (hbody : call.body = none)
    (hm : Http.isMethod call.method = true)
    (hsize : (c.request call).url.toText.utf8ByteSize ≤ Http.maxTargetBytes) (path : List Char)
    (hpath : ∀ ch ∈ path, Http.isPathChar ch = true ∧ ch ≠ '?')
    (hpush : (Url.Path.push true false ["queues".toList] id.toList).toText = '/' :: path) :
    (c.request call).raw?.bind Session.queueOf? =
      (Api.Resource.ofPath? (String.ofList ('/' :: path))).bind (·.queueName?) := by
  have hlen := target_le (c.request call).url
  have hurl : (c.request call).url =
      { c.base with tail := .path (Url.Path.push true false ["queues".toList] id.toList) } := by
    rw [← h.extend, ← hsegments]
    rfl
  rw [Request.raw?, if_neg (by omega), Option.bind_some]
  refine Session.queueOf?_of_target path c.base.query hm ?_ ?_ hpath (fun q hq => h.queryChar hq)
    (by simp only; omega)
  · simp only [Request.contentType, Client.request, hbody, Option.map_none]
  · simp only [hurl, Url.target, Url.Tail.toText, hpush]

theorem queueName?_encode {name : String} (hne : name ≠ "") :
    (Api.Resource.ofPath? (String.ofList ("/queues/".toList ++
      Percent.encode (Url.codedInSegment true) name.toList))).bind (·.queueName?) = some name := by
  have hslash : '/' ∉ Percent.encode (Url.codedInSegment true) name.toList := fun hslash =>
    (Url.segmentChar true hslash).2.2 rfl
  have hnonempty : Percent.encode (Url.codedInSegment true) name.toList ≠ [] := by
    intro hnil
    have hname : name.toList = [] := Percent.encode_injective (Url.codedInSegment_percent true) hnil
    exact hne (by rw [← String.ofList_toList (s := name), hname])
  rw [Api.Resource.ofPath?_queue hslash, if_neg hnonempty]
  exact Percent.decodeText?_encode (Url.codedInSegment_percent true) name

/-- Where a call that names a queue arrives: at the queue of the name that is written into its
path. -/
theorem queueOf?_raw {α : Type} {call : Call α} (h : c.AtRoot)
    (hsegments : call.segments = ["queues", id]) (hbody : call.body = none)
    (hm : Http.isMethod call.method = true) :
    (c.request call).raw?.bind Session.queueOf? =
      if Http.maxTargetBytes < (c.request call).url.toText.utf8ByteSize then none
      else written? id := by
  split
  · next hsize => rw [Request.raw?, if_pos hsize, Option.bind_none]
  next hsize =>
  have hroute := h.queueOf?_path hsegments hbody hm (by omega)
  have hplain (p : List Char) (hp : p.all fun ch => Http.isPathChar ch && ch != '?') :
      ∀ ch ∈ p, Http.isPathChar ch = true ∧ ch ≠ '?' := by
    simpa using hp
  rcases push_cases id with ⟨hnone, hpush⟩ | ⟨name, hname, hne, hpush⟩
  · rw [hnone]
    simp only [List.mem_cons, List.not_mem_nil, or_false] at hpush
    rcases hpush with hpush | hpush | hpush
    · rw [hroute "queues".toList (hplain _ (by decide)) (by rw [hpush]; rfl)]
      decide
    · rw [hroute [] (hplain _ (by decide)) (by rw [hpush]; rfl)]
      decide
    · rw [hroute "queues/".toList (hplain _ (by decide)) (by rw [hpush]; rfl)]
      decide
  · have hqueues := hplain "queues/".toList (by decide)
    have hpath := hroute ("queues/".toList ++ Percent.encode (Url.codedInSegment true) name.toList)
      (fun ch hch => (List.mem_append.mp hch).elim (hqueues ch) fun hch =>
        ⟨(Url.segmentChar true hch).1, (Url.segmentChar true hch).2.1⟩)
      (by rw [hpush]; simp [Url.Path.toText])
    rw [hname, hpath]
    exact queueName?_encode hne

/-- A client reads what is said about a queue. -/
theorem result_getQueue {q : QueueInfo} (hp : q.pending ≤ 0xFFFFFFFFFFFFFFFF)
    (hd : q.delivered ≤ 0xFFFFFFFFFFFFFFFF) (id : String) :
    (Call.getQueue id).result (.ofResponse (.ok (Api.QueueResponse.ofInfo q).toJson)) =
      .ok ⟨q.id, q.pending, q.delivered⟩ := by
  have hrange : (Api.QueueResponse.ofInfo q).InRange := ⟨hp, hd⟩
  exact accepts rfl (means_queue hrange) 200 (by decide)

/-! ## Calls that name a queue -/

/-- The name of the queue that a call arrives at. -/
def reaches? {α : Type} (c : Client) (call : Call α) : Option String :=
  (c.request call).raw?.bind Session.queueOf?

/-- Whether a call can name a queue: a URL takes the name neither for dots nor for one with
characters that do not count, and is not too long. -/
structure CanName (c : Client) (id : String) : Prop where
  nonempty : id ≠ ""
  noDots : id ≠ "." ∧ id ≠ ".."
  shown : ∀ ch ∈ id.toList, Url.Path.isSkipped ch = false
  fits : (c.base.extend ["queues", id]).toText.utf8ByteSize ≤ Http.maxTargetBytes

theorem AtRoot.reaches?_eq {α : Type} {call : Call α} (h : c.AtRoot)
    (hsegments : call.segments = ["queues", id]) (hbody : call.body = none)
    (hm : Http.isMethod call.method = true) :
    c.reaches? call =
      if Http.maxTargetBytes < (c.base.extend ["queues", id]).toText.utf8ByteSize then none
      else written? id := by
  rw [reaches?, queueOf?_raw h hsegments hbody hm]
  simp only [Client.request, hsegments]

theorem AtRoot.reaches?_getQueue (h : c.AtRoot) (id : String) :
    c.reaches? (Call.getQueue id) =
      if Http.maxTargetBytes < (c.base.extend ["queues", id]).toText.utf8ByteSize then none
      else written? id :=
  h.reaches?_eq rfl rfl (show Http.isMethod "GET" = true by decide)

theorem AtRoot.reaches?_deleteQueue (h : c.AtRoot) (id : String) :
    c.reaches? (Call.deleteQueue id) = c.reaches? (Call.getQueue id) := by
  rw [h.reaches?_eq rfl rfl (show Http.isMethod "DELETE" = true by decide), h.reaches?_getQueue]

theorem AtRoot.reaches?_getQueue_self (h : c.AtRoot) (id : String) :
    c.reaches? (Call.getQueue id) = some id ↔ c.CanName id := by
  rw [h.reaches?_getQueue]
  constructor
  · intro hid
    split at hid
    · cases hid
    next hsize =>
    obtain ⟨hempty, hdot, htwoDots, hshown⟩ := written?_eq_self.mp hid
    exact ⟨hempty, ⟨hdot, htwoDots⟩, hshown, by omega⟩
  · rintro ⟨hempty, ⟨hdot, htwoDots⟩, hshown, hfits⟩
    rw [if_neg (by omega)]
    exact written?_eq_self.mpr ⟨hempty, hdot, htwoDots, hshown⟩

theorem eq_of_written? {name : String} (h : written? id = some name) :
    name = String.ofList (Url.Path.visible id.toList) := by
  simp only [written?] at h
  split at h
  · cases h
  · exact (Option.some.inj h).symm

end Client

namespace Session

theorem raw?_of_reaches? {α : Type} {c : Client} {call : Client.Call α} {name : String}
    (h : c.reaches? call = some name) : ∃ r, (c.request call).raw? = some r ∧
      queueOf? r = some name ∧ r.method = call.method := by
  obtain ⟨r, hr, hname⟩ := Option.bind_eq_some_iff.mp h
  refine ⟨r, hr, hname, ?_⟩
  unfold Client.Request.raw? at hr
  split at hr
  · cases hr
  · exact (congrArg RawRequest.method (Option.some.inj hr)).symm

theorem perform_getQueue {c : Client} {id name : String} {s : Session} {q : Queue}
    (hc : c.reaches? (.getQueue id) = some name) (hq : s.broker.registry.find? name = some q)
    (hp : q.pending ≤ 0xFFFFFFFFFFFFFFFF) (hd : q.delivered ≤ 0xFFFFFFFFFFFFFFFF) :
    c.perform s.network (.getQueue id) = .ok ⟨name, q.pending, q.delivered⟩ := by
  obtain ⟨r, hraw, hr, hm⟩ := raw?_of_reaches? hc
  have hnetwork : s.network (c.request (.getQueue id)) =
      some (.ofResponse (.ok (Api.QueueResponse.ofInfo q.info).toJson)) := by
    rw [network, hraw, Option.map_some, http_getQueue hr hm hq]
  obtain rfl := (Registry.find?_spec hq).2.2
  simp only [Client.perform, hnetwork]
  exact Client.result_getQueue hp hd id

theorem perform_deleteQueue {c : Client} {id name : String} {s : Session} {q : Queue}
    (hc : c.reaches? (.deleteQueue id) = some name)
    (hq : s.broker.registry.find? name = some q) :
    c.perform s.network (.deleteQueue id) = .ok () ∧
      ∃ r, (c.request (.deleteQueue id)).raw? = some r ∧ s.http r =
        .ok (.response (.empty 200), { s with broker := (s.broker.deleteQueue name).2 }) := by
  obtain ⟨r, hraw, hr, hm⟩ := raw?_of_reaches? hc
  have hhttp := http_deleteQueue hr hm hq
  have hnetwork : s.network (c.request (.deleteQueue id)) = some (.ofResponse (.empty 200)) := by
    rw [network, hraw, Option.map_some, hhttp]
  refine ⟨?_, r, hraw, hhttp⟩
  simp only [Client.perform, hnetwork]
  rfl

/-- Which queue is reached by the calls that name one, and what they do there. They name the queue
with tabs and line breaks left out of its name; so they reach the queue that was meant just when its
name has none, is not one dot or two dots, and leaves the URL short enough. The queue that is
reached is the one that a client gets, and the one that goes. -/
theorem queue_calls {c : Client} (h : c.AtRoot) (id : String) :
    c.reaches? (.deleteQueue id) = c.reaches? (.getQueue id) ∧
    (c.reaches? (.getQueue id) = some id ↔ c.CanName id) ∧
    ∀ name, c.reaches? (.getQueue id) = some name →
      name = String.ofList (Url.Path.visible id.toList) ∧
      ∀ (s : Session) (q : Queue), s.Reachable → s.broker.registry.find? name = some q →
        q.pending ≤ 0xFFFFFFFFFFFFFFFF → q.delivered ≤ 0xFFFFFFFFFFFFFFFF →
          c.perform s.network (.getQueue id) = .ok ⟨name, q.pending, q.delivered⟩ ∧
          c.perform s.network (.deleteQueue id) = .ok () ∧
          ∃ r s', (c.request (.deleteQueue id)).raw? = some r ∧
            s.http r = .ok (.response (.empty 200), s') ∧
            s'.broker.listQueues = s.broker.listQueues.filter (·.id != name) := by
  refine ⟨h.reaches?_deleteQueue id, h.reaches?_getQueue_self id, fun name hget => ⟨?_, ?_⟩⟩
  · have hwritten := hget
    rw [h.reaches?_getQueue] at hwritten
    split at hwritten
    · cases hwritten
    · exact Client.eq_of_written? hwritten
  · intro s q hs hq hp hd
    obtain ⟨hdone, r, hraw, hhttp⟩ :=
      perform_deleteQueue ((h.reaches?_deleteQueue id).trans hget) hq
    exact ⟨perform_getQueue hget hq hp hd, hdone, r, _, hraw, hhttp,
      (hs.linked.listQueues_deleteQueue hs.oncePerName hq).2⟩

/-- A client of a broker at the loopback address. -/
def loopback : Client :=
  ⟨⟨"http", some ⟨"", none, .v6 ⟨[0, 0, 0, 0, 0, 0, 0, 1], by decide⟩, some 2626⟩, .path [[]], none,
    none⟩⟩

theorem atRoot_loopback : loopback.AtRoot where
  made := by
    have hnew : (Client.new "http://[::1]:2626/").toOption = some loopback := by decide +kernel
    refine ⟨"http://[::1]:2626/", ?_⟩
    cases h : Client.new "http://[::1]:2626/" with
    | error e =>
      rw [h] at hnew
      cases hnew
    | ok c =>
      rw [h] at hnew
      rw [Option.some.inj hnew]
  scheme := rfl
  path := rfl

/-- A name with a slash, blanks and letters beyond ASCII is reached. A name with a tab is not: the
call deletes the queue whose name is the same without the tab. -/
theorem queue_calls_once :
    ∃ (s : Session) (q ab tab : Queue), s.Reachable ∧
      s.broker.registry.find? "a b/é" = some q ∧ s.broker.registry.find? "ab" = some ab ∧
      s.broker.registry.find? "a\tb" = some tab ∧
      loopback.perform s.network (.getQueue "a b/é") = .ok ⟨"a b/é", q.pending, q.delivered⟩ ∧
      loopback.reaches? (.deleteQueue "a\tb") ≠ some "a\tb" ∧
      ∃ r s', (loopback.request (.deleteQueue "a\tb")).raw? = some r ∧
        s.http r = .ok (.response (.empty 200), s') ∧
        s'.broker.listQueues = s.broker.listQueues.filter (·.id != "ab") := by
  obtain ⟨b, hb⟩ : ∃ b, Broker.new {} = .ok b := ⟨_, rfl⟩
  obtain ⟨answers, s, hr, hp⟩ := of_endsWith (r := (Session.new .counting b ⟨0, 0⟩).run
    [.createQueue "a b/é", .createQueue "ab", .createQueue "a\tb"])
    (p := fun _ s => (s.broker.registry.find? "a b/é" == some (.new 0 "a b/é")) &&
      (s.broker.registry.find? "ab" == some (.new 1 "ab")) &&
      (s.broker.registry.find? "a\tb" == some (.new 2 "a\tb"))) (by cases hb; decide +kernel)
  simp only [Bool.and_eq_true, beq_iff_eq] at hp
  obtain ⟨⟨hq, hab⟩, htab⟩ := hp
  have hs : s.Reachable := ⟨_, _, b, _, _, answers, hb, hr⟩
  obtain ⟨-, hself, hall⟩ := queue_calls atRoot_loopback "a b/é"
  have hshown : "a b/é".toList.all (fun ch => !Url.Path.isSkipped ch) = true := by decide
  have hcan : loopback.CanName "a b/é" :=
    ⟨by decide, ⟨by decide, by decide⟩, by simpa using hshown, by decide +kernel⟩
  obtain ⟨hget, -⟩ := (hall _ (hself.mpr hcan)).2 s _ hs hq (by decide) (by decide)
  obtain ⟨hsame, hself, hall⟩ := queue_calls atRoot_loopback "a\tb"
  have hother : loopback.reaches? (.getQueue "a\tb") = some "ab" := by
    rw [atRoot_loopback.reaches?_getQueue, if_neg (by decide +kernel)]
    decide
  obtain ⟨-, -, r, s', hraw, hhttp, hlist⟩ :=
    (hall _ hother).2 s _ hs hab (by decide) (by decide)
  refine ⟨s, _, _, _, hs, hq, hab, htab, hget, ?_, r, s', hraw, hhttp, hlist⟩
  rw [hsame, hother]
  decide

end Session

end EventBroker
