import EventBroker.Proofs.Idleness
import EventBroker.Proofs.ReaperTurns
import Mathlib.Data.List.Chain

/-! # What the reapers take

Of all that the tasks do, only the reapers end channels, and none touches one: each reaper whose
turn it is takes those that have been idle for its timeout (`settle_roll`). So if nobody else ends a
channel, its `Fate` is told by the chronicle. It is alive from the deed that makes it to the first
time that a reaper takes it, and never again.
-/
set_option autoImplicit false

namespace EventBroker

/-- Whether an action leaves all channels alive and touches none. -/
def Action.sparesRoll : Action → Bool
  | .createChannel _ _ _ | .getChannel _ | .dequeue _ | .close _ | .drop => false
  | _ => true

theorem Action.isTouch_of_sparesRoll {action : Action} (h : action.sparesRoll = true) :
    action.isTouch = false := by
  cases action with
  | createChannel | getChannel | dequeue => cases h
  | _ => rfl

namespace Broker

/-- The live channels and the times that they keep. -/
def roll (b : Broker) : List (Nat × Nat) := b.channels.map fun c => (c.serial, c.lastTouched)

/-- Whether a reaper has its turn and finds idle what was last touched at a time. -/
def spent (m : Moment) (lastTouched : Nat) (r : Reaper) : Bool :=
  r.isDue m && r.timeout ≤ m.now - lastTouched

variable {b : Broker} {d : Deed} {deeds : List Deed} {serial : Nat}

/-! ## One deed -/

theorem hasChannel_of_makes (hm : makes serial (b, d) = true) :
    (b.perform d).hasChannel serial := by
  obtain ⟨m, action⟩ := d
  obtain ⟨hs, hlt⟩ := Bool.and_eq_true_iff.mp hm
  obtain rfl : b.nextChannel = serial := beq_iff_eq.mp hs
  replace hlt : b.nextChannel < (b.perform ⟨m, action⟩).nextChannel := of_decide_eq_true hlt
  by_cases hcreate : action.createsChannel = true
  · cases action with
    | createChannel id queues options =>
      rw [show b.perform ⟨m, .createChannel id queues options⟩ =
        (b.createChannel id queues options m).2 from rfl] at hlt ⊢
      rcases b.createChannel_cases id queues options m with ⟨e, he⟩ | ⟨_, _, -, -, -, he⟩
      · rw [he] at hlt
        exact absurd hlt (Nat.lt_irrefl _)
      · rw [he]
        exact ⟨_, List.mem_append_right _ List.mem_cons_self, rfl⟩
    | _ => cases hcreate
  · rw [(perform_framed b ⟨m, action⟩).nextChannel (Bool.eq_false_iff.mpr hcreate)] at hlt
    exact absurd hlt (Nat.lt_irrefl _)

/-- A deed that does not close a channel leaves it alive or dead, unless it makes it. -/
theorem Linked.hasChannel_perform (h : b.Linked) (hd : closes serial (b, d) = false) :
    (b.perform d).hasChannel serial ↔ b.hasChannel serial ∨ makes serial (b, d) = true := by
  constructor
  · rintro ⟨c', hc', rfl⟩
    rcases h.mem_next hc' with ⟨c, hc, rfl⟩ | ⟨id, queues, options, ts, -, rfl, hn, -⟩
    · exact .inl ⟨c, hc, (Channel.of_bare (Channel.next_bare b d c)).1.symm⟩
    · exact .inr (makes_next hn)
  · rintro (⟨c, hc, rfl⟩ | hm)
    · exact ⟨_, h.next_mem hc hd, (Channel.of_bare (Channel.next_bare b d c)).1⟩
    · exact hasChannel_of_makes hm

/-- Whatever an identifier means is alive. -/
theorem hasChannel_of_means {id : ChannelId} (hm : b.means id serial = true) :
    b.hasChannel serial := by
  obtain ⟨c, hf, hs⟩ := (Option.any_eq_true _ _).mp hm
  exact ⟨c, (mem_of_channel? hf).1, beq_iff_eq.mp hs⟩

theorem hasChannel_of_touches (ht : touches serial (b, d) = true) :
    b.hasChannel serial ∨ makes serial (b, d) = true := by
  obtain ⟨m, action⟩ := d
  rw [touches, Bool.or_assoc, Bool.or_eq_true] at ht
  rcases ht with hm | ht
  · exact .inr hm
  · left
    cases action with
    | getChannel id =>
      rw [drains, Bool.or_false] at ht
      exact hasChannel_of_means ht
    | dequeue id => exact hasChannel_of_means ht
    | _ => cases ht

theorem Linked.roll_replay (h : b.Linked) (hd : ∀ d ∈ deeds, d.action.sparesRoll = true) :
    (b.replay deeds).roll = b.roll := by
  induction deeds generalizing b with
  | nil => rfl
  | cons d rest ih =>
    rw [List.forall_mem_cons] at hd
    rw [replay_cons, ih (h.perform d) hd.2, roll, roll]
    obtain ⟨m, action⟩ := d
    have hspares := hd.1
    rw [h.perform_channels (fun n he => by rw [he] at hspares; cases hspares)
      (fun he => by rw [he] at hspares; cases hspares)
      (fun id queues options he => by rw [he] at hspares; cases hspares), List.map_map]
    refine List.map_congr_left fun c _ => ?_
    cases action with
    | fire rule =>
      simp only [Function.comp, Channel.next]
      split
      · split
        · rw [Channel.offered_eq]
        · rfl
      · rfl
    | getChannel | dequeue => cases hspares
    | _ => rfl

/-! ## What the tasks do to channels -/

theorem Linked.roll_reaperRun (h : b.Linked) (m : Moment) (r : Reaper) :
    (Session.reaperRun m r b).2.roll = b.roll.filter fun e => !spent m e.2 r := by
  have hkeep : r.isDue m = false → b.roll = b.roll.filter fun e => !spent m e.2 r := by
    intro hd
    rw [List.filter_eq_self.mpr]
    intro e _
    rw [spent, hd]
    rfl
  unfold Session.reaperRun
  split
  · next next hn =>
    have hdue : r.isDue m = decide (next ≤ m.mono) := by
      rw [Reaper.isDue, hn]
      rfl
    split
    · next hle =>
      simp only [Broker.reap, h.foldl_closeChannel_eq_without]
      rw [roll, roll, List.filter_map]
      congr 1
      refine List.filter_congr fun c _ => ?_
      simp [spent, hdue, hle, Channel.isIdle]
    · next hle => exact hkeep (by rw [hdue, decide_eq_false hle])
  · next hn => exact hkeep (by rw [Reaper.isDue, hn]; rfl)

theorem Linked.roll_reapers (h : b.Linked) (m : Moment) (reapers : List Reaper) :
    (reapers.foldl (fun b r => (Session.reaperRun m r b).2) b).roll =
      b.roll.filter fun e => !reapers.any (spent m e.2) := by
  induction reapers generalizing b with
  | nil => exact (List.filter_eq_self.mpr fun _ _ => rfl).symm
  | cons r rest ih =>
    rw [List.foldl_cons, ih (Session.linked_reaperRun h m r), h.roll_reaperRun, List.filter_filter]
    refine List.filter_congr fun e _ => ?_
    rw [List.any_cons, Bool.not_or, Bool.and_comm]

end Broker

namespace Session

open Broker

variable {s s' found left : Session} {past past' : List (Broker × Deed)} {serial : Nat}
  {beats : List Beat}

theorem driverDeeds_sparesRoll {d : Deed} (hd : d ∈ found.driverDeeds) :
    d.action.sparesRoll = true := by
  obtain ⟨m, action⟩ := d
  rcases driverDeeds_kind hd with hf | hw
  · cases action with
    | popDue | fire => rfl
    | _ => cases hf
  · cases hw
    rfl

theorem taskDeeds_isTouch {d : Deed} (hd : d ∈ found.taskDeeds) : d.action.isTouch = false := by
  simp only [taskDeeds, List.mem_append] at hd
  rcases hd with (hd | hd) | hd
  · exact Action.isTouch_of_sparesRoll (driverDeeds_sparesRoll hd)
  · obtain ⟨n, rfl⟩ := reapersDeeds_kind hd
    rfl
  · obtain ⟨socket, -, sub, -, rfl | rfl⟩ := socketsDeeds_kind hd <;> rfl

/-- Each reaper whose turn it is takes the channels that are idle for it. -/
theorem settle_roll (h : found.broker.Linked) (hs : found.settle = .ok left) :
    left.broker.roll = found.broker.roll.filter fun e =>
      !found.reapers.any (spent found.moment e.2) := by
  have hdriven : found.runDriver.broker.Linked := found.runDriver_broker ▸ h.replay _
  have hreaped : found.runDriver.runReapers.broker.Linked :=
    runReapers_broker hdriven ▸ hdriven.replay _
  have hdriver : found.runDriver.broker.roll = found.broker.roll := by
    rw [runDriver_broker, h.roll_replay fun d hd => driverDeeds_sparesRoll hd]
  have hsockets : left.broker.roll = found.runDriver.runReapers.broker.roll := by
    rw [runSockets_replays hs, hreaped.roll_replay]
    intro d hd
    obtain ⟨socket, -, sub, -, rfl | rfl⟩ := socketsDeeds_kind hd <;> rfl
  rw [hsockets, runReapers_eq, runDriver_moment, hdriven.roll_reapers, hdriver, runDriver_eq]

/-- Whether a reaper takes a channel when the tasks run. -/
def Beat.takes (e : Beat) (serial : Nat) (r : Reaper) : Bool :=
  r.isDue e.found.moment && idles serial r.timeout e.past e.found.moment

/-- Of the live channels those stay alive that no reaper takes. -/
theorem settle_hasChannel (h : found.broker.Linked)
    (hp : ∀ c ∈ found.broker.channels, Touched past c) (hs : found.settle = .ok left) :
    left.broker.hasChannel serial ↔ found.broker.hasChannel serial ∧
      ∀ r ∈ found.reapers, Beat.takes ⟨past, found⟩ serial r = false := by
  have hroll : ∀ b : Broker, b.hasChannel serial ↔ ∃ e ∈ b.roll, e.1 = serial := by
    intro b
    simp [hasChannel, roll]
  have hspent : ∀ c ∈ found.broker.channels, c.serial = serial → ∀ r,
      spent found.moment c.lastTouched r = Beat.takes ⟨past, found⟩ serial r := by
    rintro c hc rfl r
    rw [Beat.takes, ← (hp c hc).isIdle]
    rfl
  rw [hroll, settle_roll h hs]
  constructor
  · rintro ⟨e, he, hserial⟩
    obtain ⟨he, hfree⟩ := List.mem_filter.mp he
    obtain ⟨c, hc, rfl⟩ := List.mem_map.mp he
    refine ⟨⟨c, hc, hserial⟩, fun r hr => ?_⟩
    rw [← hspent c hc hserial]
    rw [Bool.not_eq_true', List.any_eq_false] at hfree
    exact Bool.eq_false_iff.mpr (hfree r hr)
  · rintro ⟨⟨c, hc, hserial⟩, hfree⟩
    refine ⟨(c.serial, c.lastTouched), List.mem_filter.mpr ⟨List.mem_map_of_mem hc, ?_⟩, hserial⟩
    rw [Bool.not_eq_true', List.any_eq_false]
    intro r hr
    rw [hspent c hc hserial, hfree r hr]
    exact Bool.false_ne_true

/-- Whether some reaper takes a channel when the tasks run. -/
def Beat.reaps (e : Beat) (serial : Nat) : Prop := ∃ r ∈ e.found.reapers, e.takes serial r = true

/-! ## The fate of a channel -/

/-- What is known about the channel with a serial number: it has been touched once it has been made,
and it is alive since then unless it has been reaped. -/
structure Fate (serial : Nat) (past : List (Broker × Deed)) (b : Broker) (reaped : Prop) :
    Prop where
  linked : b.Linked
  touched : ∀ c ∈ b.channels, Touched past c
  known : (lastTouch serial past).isSome = true → serial < b.nextChannel
  made : reaped → (lastTouch serial past).isSome = true
  alive : b.hasChannel serial ↔ (lastTouch serial past).isSome = true ∧ ¬reaped

namespace Fate

variable {b : Broker} {reaped : Prop}

theorem congr {reaped' : Prop} (h : Fate serial past b reaped) (hr : reaped ↔ reaped') :
    Fate serial past b reaped' := by
  rwa [← propext hr]

/-- Nobody else ends it. -/
theorem perform (h : Fate serial past b reaped) {d : Deed} (hd : closes serial (b, d) = false) :
    Fate serial (past ++ [(b, d)]) (b.perform d) reaped := by
  have hmade : (lastTouch serial (past ++ [(b, d)])).isSome = true ↔
      (lastTouch serial past).isSome = true ∨ makes serial (b, d) = true := by
    rw [lastTouch_concat]
    split
    · next ht =>
      refine iff_of_true rfl ?_
      exact (hasChannel_of_touches ht).imp_left fun hc => (h.alive.mp hc).1
    · next ht =>
      refine (or_iff_left fun hm => ht ?_).symm
      rw [touches, hm]
      rfl
  -- a serial number is given once, so a channel that is made has no history
  have hfirst : makes serial (b, d) = true → ¬reaped := by
    intro hm hr
    have hlt := h.known (h.made hr)
    have hs : b.nextChannel = serial := beq_iff_eq.mp (Bool.and_eq_true_iff.mp hm).1
    omega
  refine ⟨h.linked.perform d, h.linked.touched past h.touched [d], fun hm => ?_, fun hr => ?_, ?_⟩
  · rcases hmade.mp hm with hm | hm
    · exact Nat.lt_of_lt_of_le (h.known hm) (nextChannel_le_perform b d)
    · exact of_decide_eq_true (Bool.and_eq_true_iff.mp hm).2
  · exact hmade.mpr (.inl (h.made hr))
  · rw [h.linked.hasChannel_perform hd, hmade, h.alive]
    constructor
    · rintro (⟨hm, hr⟩ | hm)
      · exact ⟨.inl hm, hr⟩
      · exact ⟨.inr hm, hfirst hm⟩
    · rintro ⟨hm | hm, hr⟩
      · exact .inl ⟨hm, hr⟩
      · exact .inr hm

theorem replay (h : Fate serial past b reaped) {deeds : List Deed}
    (hd : ∀ d ∈ deeds, ∀ b, closes serial (b, d) = false) :
    Fate serial (past ++ b.journal deeds) (b.replay deeds) reaped := by
  induction deeds generalizing b past with
  | nil => rwa [Broker.journal, List.append_nil]
  | cons d rest ih =>
    rw [List.forall_mem_cons] at hd
    have hrest := ih (h.perform (hd.1 b)) hd.2
    rwa [List.append_assoc] at hrest

/-- The tasks end it if a reaper takes it. -/
theorem settle (h : Fate serial past found.broker reaped) (hs : found.settle = .ok left) :
    Fate serial (past ++ found.broker.journal found.taskDeeds) left.broker
      (reaped ∨ Beat.reaps ⟨past, found⟩ serial) := by
  have hsame : lastTouch serial (past ++ found.broker.journal found.taskDeeds) =
      lastTouch serial past := lastTouch_append _ _ _ fun d hd => taskDeeds_isTouch hd
  have hleft := settle_replays h.linked hs
  refine ⟨linked_settle h.linked hs, ?_, ?_, ?_, ?_⟩
  · rw [hleft]
    exact h.linked.touched past h.touched _
  · rw [hsame, hleft]
    exact fun hm => Nat.lt_of_lt_of_le (h.known hm) (nextChannel_le_replay _ _)
  · rw [hsame]
    rintro (hr | ⟨r, -, ht⟩)
    · exact h.made hr
    · obtain ⟨t, ht, -⟩ := (Option.any_eq_true _ _).mp (Bool.and_eq_true_iff.mp ht).2
      exact Option.isSome_of_mem ht
  · rw [hsame, settle_hasChannel h.linked h.touched hs, h.alive, not_or, ← and_assoc]
    refine and_congr_right fun _ => ?_
    simp [Beat.reaps]

end Fate

/-- Whether the caller does not end a channel by a step. -/
def spares (serial : Nat) (s : Session) (x : Step) : Prop :=
  ∀ d ∈ s.callerDeeds x, closes serial (s.broker, d) = false

theorem Fate.stirred {reaped : Prop} (h : Fate serial past s.broker reaped)
    (hb : Stirred (spares serial) past s past' found) :
    Fate serial past' found.broker reaped := by
  cases hb with
  | time n hn => exact h
  | acted ht hx ha =>
    rw [act_replays h.linked ht ha]
    exact h.replay fun d hd _ => hx d hd

/-- At each time that the tasks run, and in the end, a channel has been reaped if a reaper took it
at an earlier time. -/
theorem Course.fate {reaped : Prop} (h : Fate serial past s.broker reaped)
    (hc : Course (spares serial) past s beats past' s') :
    (∀ early e late, beats = early ++ e :: late →
      Fate serial e.past e.found.broker (reaped ∨ ∃ e' ∈ early, e'.reaps serial)) ∧
      Fate serial past' s'.broker (reaped ∨ ∃ e ∈ beats, e.reaps serial) := by
  induction hc generalizing reaped with
  | rest =>
    refine ⟨fun early e late he => ?_, h.congr (by simp)⟩
    cases (List.append_eq_nil_iff.mp he.symm).2
  | beat hb hs _ ih =>
    have hfound := h.stirred hb
    obtain ⟨hbeats, hend⟩ := ih (hfound.settle hs)
    refine ⟨fun early e late he => ?_, hend.congr ?_⟩
    · cases early with
      | nil =>
        obtain ⟨rfl, -⟩ := List.cons.inj he
        exact hfound.congr (by simp)
      | cons first early =>
        obtain ⟨rfl, hrest⟩ := List.cons.inj he
        exact (hbeats early e late hrest).congr (by simp [or_assoc])
    · simp [or_assoc]

/-! ## Touched again in time -/

/-- The times at which a channel was touched. -/
def touchTimes (serial : Nat) (past : List (Broker × Deed)) : List Nat :=
  (past.filter (touches serial)).map (·.2.moment.now)

theorem getLast?_touchTimes (serial : Nat) (past : List (Broker × Deed)) :
    (touchTimes serial past).getLast? = (lastTouch serial past).map (·.now) := by
  rw [touchTimes, lastTouch, List.getLast?_map, Option.map_map]
  rfl

/-- A channel that is touched again and again in less than some time is never idle for so long, if
the clock is not set back. -/
theorem Onward.idles_eq_false {timeout : Nat} (hpos : 0 < timeout) {m m' : Moment}
    (h : Onward (fun m m' => m.now ≤ m'.now) past m past' m')
    (hc : List.IsChain (fun t t' => t' < t + timeout) (touchTimes serial past' ++ [m'.now])) :
    idles serial timeout past m = false := by
  obtain ⟨later, rfl, hlater⟩ := h.deeds
  cases ht : lastTouch serial past with
  | none => rw [idles, ht]; rfl
  | some t =>
    rw [touchTimes, List.filter_append, List.map_append, List.append_assoc] at hc
    have hlast : t.now ∈ (touchTimes serial past).getLast? := by
      rw [getLast?_touchTimes, ht]
      rfl
    -- what comes next after the last touch is not before now
    obtain ⟨next, hnext, hle⟩ : ∃ next ∈ (touchTimes serial later ++ [m'.now]).head?,
        m.now ≤ next := by
      cases hl : touchTimes serial later with
      | nil => exact ⟨_, rfl, h.moment⟩
      | cons next rest =>
        refine ⟨next, rfl, ?_⟩
        have hmem : next ∈ touchTimes serial later := hl ▸ List.mem_cons_self
        obtain ⟨y, hy, rfl⟩ := List.mem_map.mp hmem
        exact hlater y (List.mem_filter.mp hy).1
    have hlt := (List.isChain_append.mp hc).2.2 _ hlast _ hnext
    rw [idles, ht, Option.any_some, decide_eq_false_iff_not]
    omega

/-! ## Sessions -/

/-- The time that a channel keeps is that of its last touch. Reaping by hand takes out the channels
that are idle for long enough and nothing else, and then there is nothing left to reap; setting the
wall clock back makes none idle. If nobody else ends a channel, it is alive from the deed that makes
it to the first time that a reaper takes it. Each reaper has its turns from its start on, one after
each interval. As long as the wall clock is not set, none takes a channel that is touched again and
again in less than its timeout. Timeouts are 64-bit milliseconds: nobody gives a larger one. -/
theorem idle_reaping {supply : IdSupply} {settings : BrokerSettings} {b : Broker} {start : Moment}
    {steps : List Step} {answers : List Answer} (hb : Broker.new settings = .ok b)
    (hr : (Session.new supply b start).run steps = .ok (answers, s))
    (hpast : past = (Session.new supply b start).journal steps)
    (hbeats : beats = chronicle [] (Session.new supply b start) steps) :
    (∀ c ∈ s.broker.channels, ∃ t, lastTouch c.serial past = some t ∧ c.lastTouched = t.now) ∧
    (∀ timeout ids left, s.broker.reap timeout s.moment = (ids, left) →
      ids = (s.broker.channels.filter fun c => idles c.serial timeout past s.moment).map (·.id) ∧
      left = s.broker.without (fun c => idles c.serial timeout past s.moment) ∧
      left.listQueues = s.broker.listQueues ∧ left.agenda = s.broker.agenda ∧
      left.reap timeout s.moment = ([], left)) ∧
    (∀ serial timeout wall, wall ≤ s.moment.wall →
      idles serial timeout past (s.moment.withWall wall) = true →
      idles serial timeout past s.moment = true) ∧
    (∀ serial, (∀ y ∈ (Session.new supply b start).trail steps, spares serial y.1 y.2) →
      (∀ early e late, beats = early ++ e :: late →
        (e.found.broker.hasChannel serial ↔
          (lastTouch serial e.past).isSome = true ∧ ∀ e' ∈ early, ¬e'.reaps serial)) ∧
      (s.broker.hasChannel serial ↔
        (lastTouch serial past).isSome = true ∧ ∀ e ∈ beats, ¬e.reaps serial)) ∧
    (∀ before timeout interval after earlier mid,
      steps = before ++ .startReaper timeout interval :: after → 0 < interval →
      (∀ x ∈ steps, x.isDrop = false) →
      (Session.new supply b start).run before = .ok (earlier, mid) →
      (beats.filter (·.isTurn mid.reapers.length)).map (·.found.moment.mono) =
          List.range' mid.moment.mono ((s.moment.mono - mid.moment.mono) / interval + 1) interval ∧
        ∀ e ∈ beats, ∀ r ∈ e.found.reapers[mid.reapers.length]?,
          r.timeout = timeout ∧ r.interval = interval) ∧
    ((∀ x ∈ steps, x.setsWall = false) → ∀ serial timeout, 0 < timeout →
      List.IsChain (fun t t' => t' < t + timeout) (touchTimes serial past ++ [s.moment.now]) →
      ∀ e ∈ beats, ∀ r ∈ e.found.reapers, timeout ≤ r.timeout → e.takes serial r = false) := by
  have hl : (Session.new supply b start).broker.Linked := Broker.Linked.new hb
  have hnone : (Session.new supply b start).broker.channels = [] := by
    rw [show (Session.new supply b start).broker = b from rfl, new_eq hb]
  subst hpast hbeats
  have htouched : ∀ c ∈ s.broker.channels,
      Touched ((Session.new supply b start).journal steps) c := by
    have := hl.touched [] (by simp [hnone]) ((Session.new supply b start).deeds steps)
    rwa [← run_replays hl hr] at this
  refine ⟨htouched, fun timeout ids left he => ?_, fun serial timeout wall => idles_of_withWall,
    fun serial hx => ?_, fun before timeout interval after earlier mid he hpos hd hbefore => ?_,
    fun hw serial timeout hpos hc e he r hr' hle => ?_⟩
  · rw [(linked_run hl hr).reap_eq htouched] at he
    cases he
    exact ⟨rfl, rfl, listQueues_without _ _, rfl, reap_without htouched timeout s.moment⟩
  · have hstart : Fate serial [] (Session.new supply b start).broker False :=
      ⟨hl, by simp [hnone], fun hm => absurd hm Bool.false_ne_true, False.elim,
        by simp [hasChannel, hnone, lastTouch]⟩
    obtain ⟨hall, hend⟩ := (course_run hl hx hr []).fate hstart
    refine ⟨fun early e late he => ?_, ?_⟩
    · rw [(hall early e late he).alive]
      simp
    · rw [List.nil_append] at hend
      rw [hend.alive]
      simp
  · subst he
    obtain ⟨earlier', later, mid', hbefore', hrest, -⟩ := run_append_eq_ok_iff.mp hr
    cases hbefore.symm.trans hbefore'
    exact reaper_turns hl hpos hbefore hrest hd rfl
  · have hafter : ∀ (m : Moment) (n : Nat), m.now ≤ (m.after n).now := by
      intro m n
      simp only [Moment.now, Moment.after]
      omega
    obtain ⟨-, honward⟩ := (course_run_of_steps hl hw hr []).onward
      (R := fun m m' => m.now ≤ m'.now) hafter (fun _ _ _ => Nat.le_trans)
      (fun _ x hx hx' => by rw [hx] at hx'; cases hx') hl
    have hfree := (honward e he).idles_eq_false hpos hc
    rw [Beat.takes, Bool.and_eq_false_iff]
    refine .inr (Bool.eq_false_iff.mpr fun hi => ?_)
    rw [idles_of_le hle hi] at hfree
    cases hfree

/-- A channel that is asked about once outlives the turns at which it has not been idle for five
milliseconds, is reaped by hand if four are enough, and is taken by the reaper at its fifth turn. -/
theorem idle_reaping_once : ∃ b answers s ids left answers' s', Broker.new {} = .ok b ∧
    (Session.new .counting b ⟨100, 0⟩).run [.createQueue "jobs", .startReaper 5 2,
      .createChannel ["jobs"] ⟨3, 2⟩, .advance 3,
      .getChannel "00000000-0000-0000-0000-000000000000", .advance 4] = .ok (answers, s) ∧
    s.broker.hasChannel 0 ∧
    ((chronicle [] (Session.new .counting b ⟨100, 0⟩) [.createQueue "jobs", .startReaper 5 2,
      .createChannel ["jobs"] ⟨3, 2⟩, .advance 3,
      .getChannel "00000000-0000-0000-0000-000000000000", .advance 4]).filter
        (·.isTurn 0)).map (·.found.moment.mono) = [0, 2, 4, 6] ∧
    s.broker.reap 4 s.moment = (ids, left) ∧ ids.length = 1 ∧
    left.reap 4 s.moment = ([], left) ∧
    s.run [.advance 1] = .ok (answers', s') ∧ ¬s'.broker.hasChannel 0 := by
  obtain ⟨b, hb⟩ : ∃ b, Broker.new {} = .ok b := ⟨_, rfl⟩
  obtain ⟨w, hw⟩ : ∃ w : List Step, w = [.createQueue "jobs", .startReaper 5 2,
      .createChannel ["jobs"] ⟨3, 2⟩, .advance 3,
      .getChannel "00000000-0000-0000-0000-000000000000", .advance 4] := ⟨_, rfl⟩
  obtain ⟨earlier, mid, hbefore, hmid⟩ := of_endsWith
    (r := (Session.new .counting b ⟨100, 0⟩).run [.createQueue "jobs"])
    (p := fun _ mid => mid.moment.mono == 0 && mid.reapers.length == 0)
    (by cases hb; decide +kernel)
  obtain ⟨answers, s, hr, hp⟩ := of_endsWith (r := (Session.new .counting b ⟨100, 0⟩).run w)
    (p := fun _ s => s.moment == ⟨107, 7⟩ &&
      (touchTimes 0 ((Session.new .counting b ⟨100, 0⟩).journal w) == [100, 103] &&
      ((chronicle [] (Session.new .counting b ⟨100, 0⟩) w).all (fun e =>
        e.found.reapers.all (·.timeout == 5)) &&
      ((s.broker.reap 4 s.moment).1.length == 1 &&
      (((Session.new .counting b ⟨100, 0⟩).trail w).all (fun y =>
        (y.1.callerDeeds y.2).all fun d => !Broker.closes 0 (y.1.broker, d)) &&
      endsWith (s.run [.advance 1]) fun _ _ =>
        ((Session.new .counting b ⟨100, 0⟩).trail (w ++ [.advance 1])).all (fun y =>
          (y.1.callerDeeds y.2).all fun d => !Broker.closes 0 (y.1.broker, d)) &&
        (chronicle [] (Session.new .counting b ⟨100, 0⟩) (w ++ [.advance 1])).any fun e =>
          e.found.reapers.any (e.takes 0))))))
    (by cases hb; cases hw; decide +kernel)
  simp only [Bool.and_eq_true, List.all_eq_true, Bool.not_eq_true', beq_iff_eq] at hp hmid
  obtain ⟨hmoment, htimes, htimeouts, hids, hspares, hend⟩ := hp
  obtain ⟨answers', s', hrun, hp'⟩ := of_endsWith hend
  simp only [Bool.and_eq_true, List.all_eq_true, Bool.not_eq_true', List.any_eq_true] at hp'
  obtain ⟨hspares', e, he, r, hmem, htakes⟩ := hp'
  obtain ⟨-, hreap, -, hfate, hturns, hfrequent⟩ := idle_reaping hb hr rfl rfl
  obtain ⟨-, -, -, hfate', -, -⟩ := idle_reaping hb
    (run_append_eq_ok_iff.mpr ⟨answers, answers', s, hr, hrun, rfl⟩) rfl rfl
  have hnone : ∀ e ∈ chronicle [] (Session.new .counting b ⟨100, 0⟩) w, ¬e.reaps 0 := by
    rintro e he ⟨r, hr', ht⟩
    have hfree := hfrequent (by rw [hw]; decide) 0 5 (by decide)
      (by rw [htimes, hmoment]; decide) e he r hr' (Nat.le_of_eq (htimeouts e he r hr').symm)
    rw [hfree] at ht
    cases ht
  have hmade : (lastTouch 0 ((Session.new .counting b ⟨100, 0⟩).journal w)).isSome = true := by
    have hlast := getLast?_touchTimes 0 ((Session.new .counting b ⟨100, 0⟩).journal w)
    rw [htimes] at hlast
    rw [← Option.isSome_map, ← hlast]
    rfl
  obtain ⟨-, -, -, -, hagain⟩ := hreap 4 _ _ rfl
  refine ⟨b, answers, s, _, _, answers', s', hb, hw ▸ hr, (hfate 0 hspares).2.mpr ⟨hmade, hnone⟩,
    ?_, rfl, hids, hagain, hrun, fun hc => ((hfate' 0 hspares').2.mp hc).2 e he ⟨r, hmem, htakes⟩⟩
  have hlist := (hturns [.createQueue "jobs"] 5 2 _ earlier mid hw (by decide) (by rw [hw]; decide)
    hbefore).1
  rw [hmid.1, hmid.2, hmoment] at hlist
  rw [← hw, hlist]
  rfl

end Session

end EventBroker
