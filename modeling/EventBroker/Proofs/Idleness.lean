import EventBroker.Proofs.Lifetimes
import Mathlib.Algebra.GroupWithZero.Nat

/-! # Idle channels

A channel is touched by the deed that makes it, by each one that asks about it and by each one that
drains it: `lastTouch` reads this off a journal. It is idle for as long as the wall clock has gone
on since then (`idleFor`). The time that a live channel keeps is that of its last touch
(`Linked.touched`), so that reaping goes by the history alone (`Linked.reap_eq`): it takes out the
channels that are idle for long enough and leaves everything else as it is.
-/
set_option autoImplicit false

namespace EventBroker

/-- Whether an action may touch a channel. -/
def Action.isTouch : Action → Bool
  | .createChannel _ _ _ | .getChannel _ | .dequeue _ => true
  | _ => false

/-- A queue that some channels watch no longer. -/
def Queue.without (gone : List Nat) (q : Queue) : Queue :=
  { q with
    watchers := q.watchers.filter (· ∉ gone)
    published := q.published.filter (· ∉ gone) }

theorem Queue.without_nil (q : Queue) : q.without [] = q := by
  simp [Queue.without]

theorem Queue.without_without (gone gone' : List Nat) (q : Queue) :
    (q.without gone).without gone' = q.without (gone ++ gone') := by
  simp [Queue.without, Bool.and_comm]

theorem Metrics.release_release (m : Metrics) (n k : Nat) :
    (m.release n).release k = m.release (n + k) := by
  unfold Metrics.release
  by_cases hk : k = 0
  · simp [hk]
  by_cases hn : n = 0
  · simp [hn]
  · simp [hn, hk, Nat.sub_sub]

namespace Broker

/-! ## Touches -/

/-- Whether a deed touches the channel with a serial number. -/
def touches (serial : Nat) (y : Broker × Deed) : Bool :=
  makes serial y || inspects serial y || drains serial y

/-- The moment at which a channel was touched last. -/
def lastTouch (serial : Nat) (past : List (Broker × Deed)) : Option Moment :=
  (past.filter (touches serial)).getLast?.map (·.2.moment)

/-- Whether a channel has been touched, but not for some time, by the wall clock. Where the clock
was set back behind the last touch, no time has gone by since. -/
def idles (serial timeout : Nat) (past : List (Broker × Deed)) (m : Moment) : Bool :=
  (lastTouch serial past).any fun t => timeout ≤ m.now - t.now

theorem lastTouch_concat (serial : Nat) (past : List (Broker × Deed)) (y : Broker × Deed) :
    lastTouch serial (past ++ [y]) =
      if touches serial y then some y.2.moment else lastTouch serial past := by
  unfold lastTouch
  by_cases hy : touches serial y = true
  · simp [List.filter_append, hy]
  · simp [List.filter_append, hy]

theorem idles_of_le {serial timeout timeout' : Nat} {past : List (Broker × Deed)} {m : Moment}
    (hle : timeout ≤ timeout') (h : idles serial timeout' past m = true) :
    idles serial timeout past m = true := by
  obtain ⟨t, ht, hidle⟩ := (Option.any_eq_true _ _).mp h
  rw [decide_eq_true_eq] at hidle
  exact (Option.any_eq_true _ _).mpr ⟨t, ht, decide_eq_true (Nat.le_trans hle hidle)⟩

/-- A wall clock that is set back makes no channel idle. -/
theorem idles_of_withWall {serial timeout : Nat} {past : List (Broker × Deed)} {m : Moment}
    {wall : Int} (hw : wall ≤ m.wall) (h : idles serial timeout past (m.withWall wall) = true) :
    idles serial timeout past m = true := by
  obtain ⟨t, ht, hle⟩ := (Option.any_eq_true _ _).mp h
  refine (Option.any_eq_true _ _).mpr ⟨t, ht, ?_⟩
  rw [decide_eq_true_eq] at hle ⊢
  exact Nat.le_trans hle (Nat.sub_le_sub_right (Int.toNat_le_toNat hw) t.now)

variable {b : Broker}

theorem touches_of_not_isTouch {d : Deed} (hd : d.action.isTouch = false) (serial : Nat)
    (b : Broker) : touches serial (b, d) = false := by
  obtain ⟨m, action⟩ := d
  have hn : action.createsChannel = false := by
    cases action with
    | createChannel => cases hd
    | _ => rfl
  have hmakes : makes serial (b, ⟨m, action⟩) = false := by
    rw [makes, (perform_framed b ⟨m, action⟩).nextChannel hn, Bool.and_eq_false_iff]
    simp only [beq_eq_false_iff_ne, decide_eq_false_iff_not]
    omega
  rw [touches, hmakes]
  cases action with
  | getChannel | dequeue => cases hd
  | _ => rfl

/-- Deeds that touch no channel do not count. -/
theorem lastTouch_append (serial : Nat) (past : List (Broker × Deed)) (b : Broker)
    {deeds : List Deed} (hd : ∀ d ∈ deeds, d.action.isTouch = false) :
    lastTouch serial (past ++ b.journal deeds) = lastTouch serial past := by
  have hnil : (b.journal deeds).filter (touches serial) = [] := by
    rw [List.filter_eq_nil_iff]
    intro y hy
    rw [touches_of_not_isTouch (hd y.2 (mem_of_mem_journal hy)) serial y.1]
    exact Bool.false_ne_true
  rw [lastTouch, List.filter_append, hnil, List.append_nil, lastTouch]

/-! ## The time that a channel keeps -/

/-- A channel keeps the time of its last touch. -/
def Touched (past : List (Broker × Deed)) (c : Channel) : Prop :=
  ∃ t, lastTouch c.serial past = some t ∧ c.lastTouched = t.now

theorem Linked.touched_next (h : b.Linked) {c : Channel} (hc : c ∈ b.channels)
    {past : List (Broker × Deed)} (hp : Touched past c) (d : Deed) :
    Touched (past ++ [(b, d)]) (c.next b d) := by
  have hs : (c.next b d).serial = c.serial := (Channel.of_bare (Channel.next_bare b d c)).1
  unfold Touched
  rw [hs, lastTouch_concat, touches, h.not_makes hc, Bool.false_or]
  obtain ⟨m, action⟩ := d
  cases action with
  | fire rule =>
    simp only [inspects, drains, Bool.or_false, Bool.false_eq_true, if_false, Channel.next]
    split
    · split
      · rw [Channel.offered_eq]
        exact hp
      · exact hp
    · exact hp
  | getChannel id | dequeue id =>
    simp only [inspects, drains, Bool.or_false, Bool.false_or, Channel.next]
    split
    · exact ⟨m, rfl, rfl⟩
    · exact hp
  | _ => exact hp

/-- Every live channel keeps the time of its last touch. -/
theorem Linked.touched (h : b.Linked) (past : List (Broker × Deed))
    (hp : ∀ c ∈ b.channels, Touched past c) (deeds : List Deed) :
    ∀ c ∈ (b.replay deeds).channels, Touched (past ++ b.journal deeds) c := by
  refine h.channels_induction (P := Touched) (fun past b id queues options m ts hm => ?_)
    (fun past b d c hb hc hp => hb.touched_next hc hp d) past hp deeds
  refine ⟨m, ?_, rfl⟩
  have ht : touches b.nextChannel (b, ⟨m, .createChannel id queues options⟩) = true := by
    rw [touches, hm]
    rfl
  exact (lastTouch_concat _ _ _).trans (if_pos ht)

theorem Touched.isIdle {past : List (Broker × Deed)} {c : Channel} (h : Touched past c) (m : Moment)
    (timeout : Nat) : c.isIdle m.now timeout = idles c.serial timeout past m := by
  obtain ⟨t, ht, hc⟩ := h
  rw [Channel.isIdle, idles, ht, hc]
  rfl

/-! ## Channels taken out -/

/-- A broker from which some channels have been taken out, with the events in them. Queues are no
longer watched by them; nothing else is changed. -/
def without (b : Broker) (gone : Channel → Bool) : Broker :=
  { b with
    registry := ⟨b.registry.queues.map (Queue.without ((b.channels.filter gone).map (·.serial)))⟩
    channels := b.channels.filter (!gone ·)
    metrics := b.metrics.release ((b.channels.filter gone).map (·.events.size)).sum }

theorem listQueues_without (b : Broker) (gone : Channel → Bool) :
    (b.without gone).listQueues = b.listQueues := by
  unfold listQueues Registry.registered without
  rw [List.filter_map, List.map_map]
  rfl

/-- Closing a channel takes it off the queues that it comes from; it watches no others. -/
theorem Linked.closeChannel_queues (h : b.Linked) {c : Channel} (hc : c ∈ b.channels) :
    (b.closeChannel c).registry.queues = b.registry.queues.map (Queue.without [c.serial]) := by
  refine List.ext_getElem? fun t => ?_
  rw [List.getElem?_map]
  have hlen : (b.closeChannel c).registry.queues.length = b.registry.queues.length := by
    rw [closeChannel_registry, Registry.length_foldl_update]
  cases hq' : (b.closeChannel c).registry.queues[t]? with
  | none =>
    rw [List.getElem?_eq_none_iff, hlen] at hq'
    rw [List.getElem?_eq_none hq']
    rfl
  | some q' =>
    obtain ⟨q, hq, rfl⟩ := h.of_get?_closeChannel hc hq'
    have hp := h.published t q hq
    rw [show b.registry.queues[t]? = some q from hq, detach_eq hp]
    simp [Queue.without, hp, bne, beq_eq_decide]

theorem Linked.foldl_closeChannel_queues (h : b.Linked) {cs : List Channel}
    (hs : cs.Sublist b.channels) : (cs.foldl Broker.closeChannel b).registry.queues =
      b.registry.queues.map (Queue.without (cs.map (·.serial))) := by
  induction cs generalizing b with
  | nil => exact ((List.map_congr_left fun q _ => q.without_nil).trans (List.map_id _)).symm
  | cons c rest ih =>
    have hc := hs.subset List.mem_cons_self
    rw [List.foldl_cons, ih (h.closeChannel hc) (h.distinct.sublist_closeChannel hs),
      h.closeChannel_queues hc, List.map_map]
    exact List.map_congr_left fun q _ => q.without_without [c.serial] (rest.map Channel.serial)

theorem foldl_closeChannel_metrics (cs : List Channel) (b : Broker) :
    (cs.foldl closeChannel b).metrics = b.metrics.release (cs.map (·.events.size)).sum := by
  induction cs generalizing b with
  | nil => rfl
  | cons c rest ih =>
    rw [List.foldl_cons, ih, closeChannel_metrics, Metrics.release_release, List.map_cons,
      List.sum_cons]

/-- Closing live channels of some kind takes them out. -/
theorem Linked.foldl_closeChannel_eq_without (h : b.Linked) (gone : Channel → Bool) :
    (b.channels.filter gone).foldl Broker.closeChannel b = b.without gone := by
  have hchannels : ((b.channels.filter gone).foldl Broker.closeChannel b).channels =
      b.channels.filter (!gone ·) := by
    rw [channels_foldl_closeChannel]
    refine List.filter_congr fun c hc => ?_
    rw [Bool.eq_iff_iff, List.all_eq_true, Bool.not_eq_true']
    simp only [List.mem_filter, bne_iff_ne, and_imp]
    constructor
    · exact fun hall => Bool.eq_false_iff.mpr fun hgone => hall c hc hgone rfl
    · intro hstays x hx hgone he
      rw [h.distinct.eq_of_serial hc hx he, hgone] at hstays
      cases hstays
  rw [foldl_closeChannel_eq, hchannels, foldl_closeChannel_metrics, without,
    ← h.foldl_closeChannel_queues List.filter_sublist]

/-! ## Reaping -/

variable {past : List (Broker × Deed)}

/-- Reaping names and takes out those that are idle for long enough. -/
theorem Linked.reap_eq (h : b.Linked) (hp : ∀ c ∈ b.channels, Touched past c) (timeout : Nat)
    (m : Moment) : b.reap timeout m =
      ((b.channels.filter fun c => idles c.serial timeout past m).map (·.id),
        b.without fun c => idles c.serial timeout past m) := by
  have hidle : b.channels.filter (·.isIdle m.now timeout) =
      b.channels.filter fun c => idles c.serial timeout past m :=
    List.filter_congr fun c hc => (hp c hc).isIdle m timeout
  rw [reap, hidle, h.foldl_closeChannel_eq_without]

/-- Then nobody is left to reap. -/
theorem reap_without (hp : ∀ c ∈ b.channels, Touched past c) (timeout : Nat) (m : Moment) :
    (b.without fun c => idles c.serial timeout past m).reap timeout m =
      ([], b.without fun c => idles c.serial timeout past m) := by
  have hnone : ((b.without fun c => idles c.serial timeout past m).channels.filter
      (·.isIdle m.now timeout)) = [] := by
    rw [List.filter_eq_nil_iff]
    intro c hc
    obtain ⟨hc, hstays⟩ := List.mem_filter.mp hc
    rw [(hp c hc).isIdle m timeout]
    exact Bool.eq_false_iff.mp ((Bool.not_eq_true' _).mp hstays)
  rw [reap, hnone]
  rfl

end Broker

end EventBroker
