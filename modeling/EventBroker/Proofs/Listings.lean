import EventBroker.Proofs.Identifiers
import EventBroker.Proofs.Submission

/-! # What is listed

A `Roll` is an ordered list of the queues and the channels that there are. It is kept by nothing but
what is done to the broker: a name that is registered goes to its end, and stands in it once; what
is deleted, reaped or dropped is crossed out (`Roll.record`). The broker's stores are `Kept` in step
with the roll by every deed, so its lists are those of the roll, and every operation finds just what
stands in it (`Session.rolls_kept`).
-/
set_option autoImplicit false

namespace EventBroker

/-- A channel as it was created. Its number says how many had been created before. -/
structure Enrolment where
  number : Nat
  id : ChannelId
  queues : List String
  options : BufferOptions
  deriving DecidableEq

structure Roll where
  queues : List String
  channels : List Enrolment
  /-- How many channels have been created. -/
  created : Nat
  deriving DecidableEq

namespace Roll

def empty : Roll := ⟨[], [], 0⟩

def record (r : Roll) : Action → Roll
  | .createQueue id =>
    if Text.isBlankText id ∨ id ∈ r.queues then r else { r with queues := r.queues ++ [id] }
  | .retire id => { r with queues := r.queues.filter (· != id) }
  | .createChannel id queues options =>
    if queues ≠ [] ∧ options.size ≠ 0 ∧ ∀ name ∈ queues, name ∈ r.queues then
      { r with
        channels := r.channels ++ [⟨r.created, id, queues, options⟩]
        created := r.created + 1 }
    else r
  | .close number => { r with channels := r.channels.filter (·.number != number) }
  | .drop => { r with channels := [] }
  | _ => r

/-- The roll that some deeds leave behind. -/
def after (r : Roll) (deeds : List Deed) : Roll := deeds.foldl (fun r d => r.record d.action) r

/-- No queue stands on the roll twice, and none has a blank name. -/
def IsProper (r : Roll) : Prop := r.queues.Nodup ∧ ∀ id ∈ r.queues, Text.isBlankText id = false

theorem IsProper.empty : IsProper Roll.empty := ⟨List.nodup_nil, List.forall_mem_nil _⟩

theorem IsProper.record {r : Roll} (h : r.IsProper) (action : Action) :
    (r.record action).IsProper := by
  cases action with
  | createQueue id =>
    simp only [Roll.record]
    split
    · exact h
    · next hn =>
      rw [not_or, Bool.not_eq_true] at hn
      refine ⟨?_, fun name hm => ?_⟩
      · rw [← List.concat_eq_append]
        exact h.1.concat hn.2
      · rcases List.mem_append.mp hm with hm | hm
        · exact h.2 name hm
        · exact List.mem_singleton.mp hm ▸ hn.1
  | retire id => exact ⟨h.1.filter _, fun name hm => h.2 name (List.mem_of_mem_filter hm)⟩
  | createChannel id queues options =>
    simp only [Roll.record]
    split <;> exact h
  | _ => exact h

theorem IsProper.after {r : Roll} (h : r.IsProper) (deeds : List Deed) :
    (r.after deeds).IsProper := by
  induction deeds generalizing r with
  | nil => exact h
  | cons d rest ih => exact ih (h.record d.action)

/-- The first of some names that is not on the roll. -/
def unknown? (r : Roll) (names : List String) : Option String := names.find? (· ∉ r.queues)

theorem unknown?_eq_none_iff {r : Roll} {names : List String} :
    r.unknown? names = none ↔ ∀ name ∈ names, name ∈ r.queues := by
  simp [unknown?]

end Roll

/-! ## What stands on the roll for a queue and for a channel -/

namespace Queue

/-- The name of a queue, and whether it goes for nothing. -/
def plate (q : Queue) : String × Bool := (q.id, q.retired)

theorem plate_of_bare {q q' : Queue} (h : q.bare = q'.bare) : q.plate = q'.plate :=
  Prod.ext (of_bare h).2.1 (of_bare h).2.2.1

@[simp] theorem plate_attach (q : Queue) (n : Nat) : (q.attach n).plate = q.plate := rfl

@[simp] theorem plate_detach (q : Queue) (n : Nat) : (q.detach n).plate = q.plate := by
  unfold detach
  split <;> rfl

end Queue

def Channel.enrolment (c : Channel) : Enrolment := ⟨c.serial, c.id, c.queues, c.options⟩

namespace Registry

variable {r r' : Registry}

/-- The names that are registered, in the order in which their incarnations began. -/
def names (r : Registry) : List String := r.registered.map (·.id)

theorem names_eq (r : Registry) :
    r.names = ((r.queues.map Queue.plate).filter (!·.2)).map (·.1) := by
  rw [List.filter_map, List.map_map]
  rfl

theorem names_congr (h : ∀ t, (r'.get? t).map Queue.plate = (r.get? t).map Queue.plate) :
    r'.names = r.names := by
  have hq : r'.queues.map Queue.plate = r.queues.map Queue.plate := by
    refine List.ext_getElem? fun t => ?_
    rw [List.getElem?_map, List.getElem?_map]
    exact h t
  rw [names_eq, names_eq, hq]

theorem names_update (r : Registry) (serial : Nat) {f : Queue → Queue}
    (hf : ∀ q, (f q).plate = q.plate) : (r.update serial f).names = r.names := by
  refine names_congr fun t => ?_
  rw [get?_update]
  split
  · rw [Option.map_map]
    exact congrArg (Option.map · (r.get? t)) (funext hf)
  · rfl

theorem names_foldl_update {f : Queue → Queue} (hf : ∀ q, (f q).plate = q.plate)
    (targets : List Nat) (r : Registry) :
    (targets.foldl (fun r t => r.update t f) r).names = r.names := by
  induction targets generalizing r with
  | nil => rfl
  | cons t rest ih => rw [List.foldl_cons, ih, names_update r t hf]

theorem names_append (r : Registry) (id : String) : (r.append id).names = r.names ++ [id] := by
  simp [names, registered, append, Queue.new]

theorem mem_names_iff {id : String} : id ∈ r.names ↔ ∃ q, r.find? id = some q := by
  rw [← Option.isSome_iff_exists, find?, List.find?_isSome]
  simp [names, registered, and_assoc]

theorem names_retire (hn : r.OncePerName) (hr : r.Numbered) {id : String} {q : Queue}
    (hq : r.find? id = some q) :
    (r.update q.serial Queue.retire).names = r.names.filter (· != id) := by
  rw [← names_update _ q.serial (f := (·.subPending 0)) fun _ => rfl, names,
    hn.registered_retire hr hq 0, names, List.filter_map]
  rfl

end Registry

/-! ## Keeping the roll -/

namespace Broker

variable {b b' : Broker} {roll : Roll}

structure Kept (b : Broker) (roll : Roll) : Prop where
  queues : b.registry.names = roll.queues
  channels : b.channels.map Channel.enrolment = roll.channels
  created : b.nextChannel = roll.created

namespace Kept

theorem new {settings : BrokerSettings} (h : Broker.new settings = .ok b) : b.Kept .empty := by
  rw [new_eq h]
  exact ⟨rfl, rfl, rfl⟩

theorem of_sameLinks (h : b.Kept roll) (hs : SameLinks b b') : b'.Kept roll where
  queues := by
    refine (Registry.names_congr fun t => ?_).trans h.queues
    have ht := hs.queues t
    cases hq' : b'.registry.get? t with
    | none =>
      rw [hq'] at ht
      rw [Option.map_eq_none_iff.mp ht.symm]
    | some q' =>
      obtain ⟨q, hq, hb⟩ := hs.get?_left hq'
      rw [hq, Option.map_some, Option.map_some, Queue.plate_of_bare hb]
  channels := by
    have hmap : ∀ cs : List Channel,
        cs.map Channel.enrolment = (cs.map Channel.bare).map Channel.enrolment := by
      intro cs
      rw [List.map_map]
      rfl
    rw [hmap, hs.channels, ← hmap, h.channels]
  created := hs.next.trans h.created

theorem mem_queues_iff (h : b.Kept roll) {id : String} :
    id ∈ roll.queues ↔ ∃ q, b.registry.find? id = some q := by
  rw [← h.queues, Registry.mem_names_iff]

theorem not_mem_queues_iff (h : b.Kept roll) {id : String} :
    id ∉ roll.queues ↔ b.registry.find? id = none := by
  rw [h.mem_queues_iff, ← Option.isSome_iff_exists, Option.not_isSome_iff_eq_none]

theorem createQueue (h : b.Kept roll) (id : String) :
    (b.createQueue id).2.Kept (roll.record (.createQueue id)) := by
  unfold Broker.createQueue
  simp only [Roll.record]
  by_cases hb : Text.isBlankText id = true
  · rw [if_pos hb, if_pos (.inl hb)]
    exact h
  rw [if_neg hb]
  cases hf : b.registry.find? id with
  | some q =>
    rw [if_pos (.inr (h.mem_queues_iff.mpr ⟨q, hf⟩))]
    exact h
  | none =>
    rw [if_neg (not_or.mpr ⟨hb, h.not_mem_queues_iff.mpr hf⟩)]
    refine ⟨?_, h.channels, h.created⟩
    show (b.registry.append id).names = roll.queues ++ [id]
    rw [Registry.names_append, h.queues]

theorem retire (h : b.Kept roll) (hl : b.Linked) (hn : b.registry.OncePerName) (id : String) :
    (b.retire id).2.Kept (roll.record (.retire id)) := by
  unfold Broker.retire
  simp only [Roll.record]
  cases hf : b.registry.find? id with
  | some q =>
    refine ⟨?_, h.channels, h.created⟩
    show (b.registry.update q.serial Queue.retire).names = roll.queues.filter (· != id)
    rw [Registry.names_retire hn hl.numbered hf, h.queues]
  | none =>
    have hsame : roll.queues.filter (· != id) = roll.queues := by
      rw [List.filter_eq_self]
      intro name hm
      rw [bne_iff_ne]
      rintro rfl
      exact h.not_mem_queues_iff.mpr hf hm
    rw [hsame]
    exact h

/-- A channel is created if it has queues, all of them registered, and room for something. -/
theorem createChannel_ok_iff (h : b.Kept roll) (id : ChannelId) (queues : List String)
    (options : BufferOptions) (m : Moment) : (b.createChannel id queues options m).1 = .ok id ↔
      queues ≠ [] ∧ options.size ≠ 0 ∧ ∀ name ∈ queues, name ∈ roll.queues := by
  unfold Broker.createChannel
  by_cases hq : queues = []
  · simp [hq]
  by_cases hs : options.size = 0
  · simp [hq, hs]
  rw [if_neg (by simpa using hq), if_neg hs]
  cases hr : b.registry.resolve queues with
  | error e =>
    obtain ⟨name, hm, hnone, -⟩ := Registry.resolve_error hr
    simp only [reduceCtorEq, false_iff, not_and]
    exact fun _ _ hall => h.not_mem_queues_iff.mpr hnone (hall name hm)
  | ok targets =>
    simp only [true_iff]
    refine ⟨hq, hs, fun name hm => ?_⟩
    have hspec := Registry.resolve_spec hr
    obtain ⟨i, hi, rfl⟩ := List.getElem_of_mem hm
    obtain ⟨q, hfound, -⟩ := hspec.get hi (hspec.length_eq ▸ hi)
    exact h.mem_queues_iff.mpr ⟨q, hfound⟩

theorem createChannel (h : b.Kept roll) (id : ChannelId) (queues : List String)
    (options : BufferOptions) (m : Moment) : (b.createChannel id queues options m).2.Kept
      (roll.record (.createChannel id queues options)) := by
  have hiff := h.createChannel_ok_iff id queues options m
  simp only [Roll.record]
  rcases b.createChannel_cases id queues options m with ⟨e, he⟩ | ⟨targets, ts, -, -, -, he⟩
  · rw [he] at hiff ⊢
    rw [if_neg (fun hall => by cases hiff.mpr hall)]
    exact h
  · rw [he] at hiff ⊢
    rw [if_pos (hiff.mp rfl)]
    refine ⟨?_, ?_, congrArg (· + 1) h.created⟩
    · exact (Registry.names_foldl_update (fun q => Queue.plate_attach q _) ts _).trans h.queues
    · simp only [List.map_append, h.channels, ← h.created]
      rfl

theorem closeChannel_names (b : Broker) (c : Channel) :
    (b.closeChannel c).registry.names = b.registry.names := by
  rw [closeChannel_registry]
  exact Registry.names_foldl_update (fun q => Queue.plate_detach q _) _ _

theorem close (h : b.Kept roll) (m : Moment) (serial : Nat) :
    (b.perform ⟨m, .close serial⟩).Kept (roll.record (.close serial)) := by
  have hfilter : roll.channels.filter (·.number != serial) =
      (b.channels.filter (·.serial != serial)).map Channel.enrolment := by
    rw [← h.channels, List.filter_map]
    rfl
  have hnext : (b.perform ⟨m, .close serial⟩).nextChannel = roll.created :=
    ((perform_framed b ⟨m, .close serial⟩).nextChannel rfl).trans h.created
  simp only [Broker.perform, Roll.record] at hnext ⊢
  rw [hfilter]
  cases hat : b.at? serial with
  | some c =>
    rw [hat] at hnext
    obtain rfl := serial_of_at? hat
    exact ⟨(closeChannel_names b c).trans h.queues, by rw [closeChannel_channels], hnext⟩
  | none =>
    rw [List.filter_eq_self.mpr fun c hc => by simpa using at?_eq_none_iff.mp hat c hc]
    exact ⟨h.queues, rfl, h.created⟩

theorem drop (h : b.Kept roll) (m : Moment) :
    (b.perform ⟨m, .drop⟩).Kept (roll.record .drop) := by
  have hnames : ∀ (cs : List Channel) (b : Broker),
      (cs.foldl Broker.closeChannel b).registry.names = b.registry.names := by
    intro cs
    induction cs with
    | nil => exact fun _ => rfl
    | cons c rest ih =>
      intro b
      rw [List.foldl_cons, ih, closeChannel_names]
  refine ⟨(hnames b.channels b).trans h.queues, rfl, ?_⟩
  rw [(perform_framed b ⟨m, .drop⟩).nextChannel rfl]
  exact h.created

/-- Each deed is entered on the roll. -/
theorem perform (h : b.Kept roll) (hl : b.Linked) (hn : b.registry.OncePerName) (d : Deed) :
    (b.perform d).Kept (roll.record d.action) := by
  obtain ⟨m, action⟩ := d
  cases action with
  | createQueue id => exact h.createQueue id
  | retire id => exact h.retire hl hn id
  | cancelFor target => exact h.of_sameLinks (sameLinks_cancelFor b target)
  | arm id event targets => exact h.of_sameLinks (sameLinks_arm b id event targets)
  | fire rule => exact h.of_sameLinks (hl.sameLinks_fire rule m)
  | createChannel id queues options => exact h.createChannel id queues options m
  | getChannel id => exact h.of_sameLinks (sameLinks_getChannel b id m)
  | dequeue id => exact h.of_sameLinks (sameLinks_dequeue b id m)
  | close serial => exact h.close m serial
  | subscribe category =>
    simp only [Broker.perform]
    split
    · next hs =>
      rw [subscribe_eq hs]
      exact ⟨h.queues, h.channels, h.created⟩
    · exact h
  | unsubscribe s =>
    simp only [Broker.perform]
    split
    · next hs =>
      rw [unsubscribe_eq hs]
      exact ⟨h.queues, h.channels, h.created⟩
    · exact h
  | popDue now => exact ⟨h.queues, h.channels, h.created⟩
  | receive s => exact ⟨h.queues, h.channels, h.created⟩
  | receiveUpTo s max => exact ⟨h.queues, h.channels, h.created⟩
  | wake => exact ⟨h.queues, h.channels, h.created⟩
  | drop => exact h.drop m

theorem replay (h : b.Kept roll) (hl : b.Linked) (hn : b.registry.OncePerName)
    (deeds : List Deed) : (b.replay deeds).Kept (roll.after deeds) := by
  induction deeds generalizing b roll with
  | nil => exact h
  | cons d rest ih => exact ih (h.perform hl hn d) (hl.perform d) (hl.oncePerName_perform hn d)

/-! ## Looking names up -/

theorem resolve_known (h : b.Kept roll) {names : List String} (hn : roll.unknown? names = none) :
    ∃ targets, b.registry.resolve names = .ok targets :=
  Registry.resolve_ok fun name hm => h.mem_queues_iff.mp (Roll.unknown?_eq_none_iff.mp hn name hm)

/-- The first name that is not on the roll decides. -/
theorem resolve_unknown (h : b.Kept roll) {names : List String} {name : String}
    (hn : roll.unknown? names = some name) :
    b.registry.resolve names = .error (.queueNotFound name) := by
  obtain ⟨hname, before, after, rfl, hb⟩ := List.find?_eq_some_iff_append.mp hn
  refine Registry.resolve_first (fun id hid => h.mem_queues_iff.mp ?_)
    (h.not_mem_queues_iff.mp (by simpa using hname)) after
  simpa using hb id hid

end Kept

/-- An operation that succeeds just if what it is asked about is there; else it says what is not
found, and leaves the broker as it is. -/
structure Finds {α : Type} (b : Broker) (there : Prop) (e : BrokerError) (outcome : Outcome α) :
    Prop where
  found : there → ∃ a b', outcome = (.ok a, b')
  missing : ¬ there → outcome = (.error e, b)

/-- The queues that are listed are those of a roll, and every operation goes by them. -/
structure QueuesEnrolled (b : Broker) (roll : Roll) : Prop where
  listed : b.listQueues.map (·.id) = roll.queues
  once : roll.queues.Nodup
  create_listed : ∀ id ∈ roll.queues, b.createQueue id = (.ok false, b)
  create : ∀ id ∉ roll.queues, Text.isBlankText id = false →
    ∃ b', b.createQueue id = (.ok true, b') ∧ b'.listQueues = b.listQueues ++ [⟨id, 0, 0⟩]
  get : ∀ id, b.Finds (id ∈ roll.queues) (.queueNotFound id) (b.getQueue id)
  get_listed : ∀ info ∈ b.listQueues, b.getQueue info.id = (.ok info, b)
  delete : ∀ id, b.Finds (id ∈ roll.queues) (.queueNotFound id) (b.deleteQueue id)
  delete_listed : ∀ id ∈ roll.queues,
    (b.deleteQueue id).2.listQueues = b.listQueues.filter (·.id != id)
  submit : ∀ id event, event.rules ≠ [] → (∀ rule ∈ event.rules, rule.IsSound) →
    totalTimes event.rules ≤ maxOccurrences →
    match roll.unknown? (event.rules.map (·.queue)) with
    | none => ∃ b', b.submit id event = (.ok id, b')
    | some name => b.submit id event = (.error (.queueNotFound name), b)
  createChannel : ∀ id queues options m, queues ≠ [] → options.size ≠ 0 →
    match roll.unknown? queues with
    | none => ∃ b', b.createChannel id queues options m = (.ok id, b') ∧
        b'.listChannels = b.listChannels ++ [id]
    | some name => b.createChannel id queues options m = (.error (.queueNotFound name), b)

/-- The channels that are listed are those of a roll, and every operation goes by them. -/
structure ChannelsEnrolled (b : Broker) (roll : Roll) : Prop where
  listed : b.listChannels = roll.channels.map (·.id)
  once : b.listChannels.Nodup
  get : ∀ id m, b.Finds (id ∈ b.listChannels) (.channelNotFound id.toText) (b.getChannel id m)
  get_listed : ∀ e ∈ roll.channels, ∀ m, ∃ buffered ready,
    (b.getChannel e.id m).1 = .ok ⟨e.id, e.queues, e.options, buffered, ready⟩
  dequeue : ∀ id m, b.Finds (id ∈ b.listChannels) (.channelNotFound id.toText) (b.dequeue id m)
  delete : ∀ id, b.Finds (id ∈ b.listChannels) (.channelNotFound id.toText) (b.deleteChannel id)
  delete_listed : ∀ id ∈ b.listChannels,
    (b.deleteChannel id).2.listChannels = b.listChannels.filter (· != id)
  reap : ∀ timeout m, (b.reap timeout m).2.listChannels =
    b.listChannels.filter (· ∉ (b.reap timeout m).1)

theorem listQueues_ids (b : Broker) : b.listQueues.map (·.id) = b.registry.names := by
  rw [listQueues, List.map_map]
  rfl

theorem listQueues_append (b : Broker) (id : String) :
    ({ b with registry := b.registry.append id }).listQueues = b.listQueues ++ [⟨id, 0, 0⟩] := by
  simp [listQueues, Registry.registered, Registry.append, Queue.new, Queue.info]

namespace Kept

theorem queuesEnrolled (h : b.Kept roll) (hp : roll.IsProper) (hl : b.Linked)
    (hn : b.registry.OncePerName) : b.QueuesEnrolled roll where
  listed := b.listQueues_ids.trans h.queues
  once := hp.1
  create_listed id hid := by
    obtain ⟨q, hq⟩ := h.mem_queues_iff.mp hid
    rw [Broker.createQueue, if_neg (by rw [hp.2 id hid]; exact Bool.false_ne_true), hq]
  create id hid hb := by
    rw [Broker.createQueue, if_neg (by rw [hb]; exact Bool.false_ne_true),
      h.not_mem_queues_iff.mp hid]
    exact ⟨_, rfl, b.listQueues_append id⟩
  get id := by
    refine ⟨fun hid => ?_, fun hid => ?_⟩
    · obtain ⟨q, hq⟩ := h.mem_queues_iff.mp hid
      exact ⟨q.info, b, by rw [getQueue, hq]⟩
    · rw [getQueue, h.not_mem_queues_iff.mp hid]
  get_listed info hi := by
    obtain ⟨q, hq, rfl⟩ := List.mem_map.mp hi
    obtain ⟨hm, hlive⟩ := List.mem_filter.mp hq
    have hf := hn.find?_of_live hl.numbered hm (by simpa using hlive)
    rw [Broker.getQueue, show b.registry.find? q.info.id = some q from hf]
  delete id := by
    refine ⟨fun hid => ?_, fun hid => ?_⟩
    · obtain ⟨q, hq⟩ := h.mem_queues_iff.mp hid
      exact ⟨(), _, Prod.ext (hl.listQueues_deleteQueue hn hq).1 rfl⟩
    · rw [Broker.deleteQueue, Broker.retire, h.not_mem_queues_iff.mp hid]
  delete_listed id hid := by
    obtain ⟨q, hq⟩ := h.mem_queues_iff.mp hid
    exact (hl.listQueues_deleteQueue hn hq).2
  submit id event hne hs hf := by
    have ht := targets_of_sound (b := b) hne hs
    rw [if_neg (by rw [few_iff]; exact Nat.not_lt.mpr hf)] at ht
    split
    · next hu =>
      obtain ⟨targets, hr⟩ := h.resolve_known hu
      exact ⟨_, by rw [Broker.submit, ht, hr]⟩
    · next name hu => rw [Broker.submit, ht, h.resolve_unknown hu]
  createChannel id queues options m hne hs := by
    split
    · next hu =>
      have hok := (h.createChannel_ok_iff id queues options m).mpr
        ⟨hne, hs, Roll.unknown?_eq_none_iff.mp hu⟩
      rcases b.createChannel_cases id queues options m with ⟨e, he⟩ | ⟨_, ts, -, -, -, he⟩
      · rw [he] at hok
        cases hok
      · refine ⟨_, he, ?_⟩
        simp [listChannels, Channel.new]
    · next name hu =>
      rw [Broker.createChannel, if_neg (by simpa using hne), if_neg hs, h.resolve_unknown hu]

end Kept

theorem mem_listChannels_iff {id : ChannelId} :
    id ∈ b.listChannels ↔ ∃ c, b.channel? id = some c := by
  rw [listChannels, List.mem_map, ← Option.isSome_iff_exists, channel?, List.find?_isSome]
  simp

theorem not_mem_listChannels_iff {id : ChannelId} :
    id ∉ b.listChannels ↔ b.channel? id = none := by
  rw [mem_listChannels_iff, ← Option.isSome_iff_exists, Option.not_isSome_iff_eq_none]

/-- Closing channels takes just their identifiers off the list. -/
theorem listChannels_foldl_closeChannel {ident : Nat → ChannelId} (hi : b.Identified ident)
    (hl : b.Linked) {cs : List Channel} (hcs : ∀ c ∈ cs, c ∈ b.channels) :
    (cs.foldl closeChannel b).listChannels = b.listChannels.filter (· ∉ cs.map (·.id)) := by
  rw [listChannels, channels_foldl_closeChannel, listChannels, List.filter_map]
  refine congrArg (List.map _) (List.filter_congr fun c hc => ?_)
  rw [Bool.eq_iff_iff, List.all_eq_true, Function.comp_apply, decide_eq_true_iff, List.mem_map]
  constructor
  · rintro hall ⟨c', hc', he⟩
    have hs := hall c' hc'
    rw [bne_iff_ne] at hs
    exact hs ((hi.serial_eq_iff hl hc (hcs c' hc')).mpr he.symm)
  · intro hnone c' hc'
    rw [bne_iff_ne]
    exact fun hs => hnone ⟨c', hc', ((hi.serial_eq_iff hl hc (hcs c' hc')).mp hs).symm⟩

theorem Kept.channelsEnrolled (h : b.Kept roll) {ident : Nat → ChannelId} (hi : b.Identified ident)
    (hl : b.Linked) : b.ChannelsEnrolled roll where
  listed := by
    rw [← h.channels, List.map_map]
    rfl
  once := by
    refine List.Nodup.map_on (fun c hc c' hc' he => ?_) (List.Nodup.of_map _ hl.distinct)
    exact hl.distinct.eq_of_serial hc hc' ((hi.serial_eq_iff hl hc hc').mpr he)
  get id m := by
    refine ⟨fun hid => ?_, fun hid => ?_⟩
    · obtain ⟨c, hc⟩ := mem_listChannels_iff.mp hid
      exact ⟨_, _, by rw [getChannel, hc]⟩
    · rw [getChannel, not_mem_listChannels_iff.mp hid]
  get_listed e he m := by
    rw [← h.channels] at he
    obtain ⟨c, hc, rfl⟩ := List.mem_map.mp he
    refine ⟨c.events.size, c.ready m.mono, ?_⟩
    show (b.getChannel c.id m).1 = _
    rw [getChannel, hi.channel?_of_mem hl hc]
    rfl
  dequeue id m := by
    refine ⟨fun hid => ?_, fun hid => ?_⟩
    · obtain ⟨c, hc⟩ := mem_listChannels_iff.mp hid
      exact ⟨_, _, by rw [Broker.dequeue, hc]⟩
    · rw [Broker.dequeue, not_mem_listChannels_iff.mp hid]
  delete id := by
    refine ⟨fun hid => ?_, fun hid => ?_⟩
    · obtain ⟨c, hc⟩ := mem_listChannels_iff.mp hid
      exact ⟨_, _, by rw [deleteChannel, hc]⟩
    · rw [deleteChannel, not_mem_listChannels_iff.mp hid]
  delete_listed id hid := by
    obtain ⟨c, hc⟩ := mem_listChannels_iff.mp hid
    obtain ⟨hm, rfl⟩ := mem_of_channel? hc
    have hclose := listChannels_foldl_closeChannel hi hl (List.forall_mem_singleton.mpr hm)
    rw [deleteChannel, hc]
    refine hclose.trans (List.filter_congr fun id _ => ?_)
    rw [Bool.eq_iff_iff, decide_eq_true_iff, bne_iff_ne, List.map_singleton, List.mem_singleton]
  reap timeout m := listChannels_foldl_closeChannel hi hl fun _ hc => List.mem_of_mem_filter hc

end Broker

namespace Session

/-- In every session the lists are those of the roll that its deeds have left behind, and every
operation finds just what stands in it. -/
theorem rolls_kept {supply : IdSupply} {settings : BrokerSettings} {b : Broker} {m : Moment}
    (hb : Broker.new settings = .ok b) {steps : List Step} {answers : List Answer} {s : Session}
    (hr : (Session.new supply b m).run steps = .ok (answers, s)) :
    s.broker.QueuesEnrolled (Roll.empty.after ((Session.new supply b m).deeds steps)) ∧
      (Set.InjOn supply.channel (Set.Iio s.broker.nextChannel) →
        s.broker.ChannelsEnrolled (Roll.empty.after ((Session.new supply b m).deeds steps))) := by
  have hreach : s.Reachable := ⟨supply, settings, b, m, steps, answers, hb, hr⟩
  have hl : (Session.new supply b m).broker.Linked := Broker.Linked.new hb
  have hn : (Session.new supply b m).broker.registry.OncePerName :=
    Reachable.oncePerName ⟨supply, settings, b, m, [], [], hb, rfl⟩
  have hk : s.broker.Kept (Roll.empty.after ((Session.new supply b m).deeds steps)) := by
    rw [run_replays hl hr]
    exact (Broker.Kept.new hb).replay hl hn _
  exact ⟨hk.queuesEnrolled (Roll.IsProper.empty.after _) hreach.linked hreach.oncePerName,
    fun hi => hk.channelsEnrolled (identified_run hb hr hi) hreach.linked⟩

/-- A queue is deleted and comes back behind another one; a channel on the first queue stays. -/
theorem rolls_kept_once : ∃ b answers s, Broker.new {} = .ok b ∧
    (Session.new .counting b ⟨0, 0⟩).run
      [.createQueue "a", .createQueue "b", .createChannel ["a", "a"] ⟨0, 2⟩, .deleteQueue "a",
        .createQueue "a"] = .ok (answers, s) ∧
    s.broker.listQueues.map (·.id) = ["b", "a"] ∧
    s.broker.listChannels = [IdSupply.counting.channel 0] := by
  obtain ⟨b, hb⟩ : ∃ b, Broker.new {} = .ok b := ⟨_, rfl⟩
  obtain ⟨answers, s, hr, hp⟩ := of_endsWith
    (r := (Session.new .counting b ⟨0, 0⟩).run
      [.createQueue "a", .createQueue "b", .createChannel ["a", "a"] ⟨0, 2⟩, .deleteQueue "a",
        .createQueue "a"])
    (p := fun _ s => s.broker.nextChannel == 1) (by cases hb; decide +kernel)
  obtain ⟨hq, hc⟩ := rolls_kept hb hr
  have hroll : Roll.empty.after ((Session.new .counting b ⟨0, 0⟩).deeds
      [.createQueue "a", .createQueue "b", .createChannel ["a", "a"] ⟨0, 2⟩, .deleteQueue "a",
        .createQueue "a"]) =
      ⟨["b", "a"], [⟨0, IdSupply.counting.channel 0, ["a", "a"], ⟨0, 2⟩⟩], 1⟩ := by
    cases hb
    decide +kernel
  rw [hroll] at hq hc
  refine ⟨b, answers, s, hb, hr, hq.listed, (hc fun i hi j hj _ => ?_).listed⟩
  rw [beq_iff_eq.mp hp, Set.mem_Iio] at hi hj
  omega

end Session

end EventBroker
