import EventBroker.Proofs.Lifetimes
import EventBroker.Proofs.SessionRuns

/-! # Who watches whom

`Broker.Linked` says that channels and incarnations agree on their links. Here the links are tied to
what has been done: a live channel has its sources from the deed that made it, `Broker.Traced`, and
so it watches just those incarnations that its names meant then and that are still registered,
whatever has been created, deleted and reaped since (`Broker.watchers_exact`).
-/
set_option autoImplicit false

namespace EventBroker

namespace Broker

variable {b : Broker} {past : List (Broker × Deed)} {deeds : List Deed} {n : Nat}
  {targets targets' : List Nat} {y y' : Broker × Deed}

/-- Whether a deed makes the channel with a serial number out of names that mean some incarnations
at that moment. -/
def makesFrom (n : Nat) (targets : List Nat) (y : Broker × Deed) : Prop :=
  makes n y = true ∧ ∃ id queues options, y.2.action = .createChannel id queues options ∧
    y.1.registry.resolve queues = .ok targets

theorem makes_iff {d : Deed} : makes n (b, d) = true ↔
    b.nextChannel = n ∧ n < (b.perform d).nextChannel := by
  simp [makes]

/-- One deed does not make a channel out of different incarnations. -/
theorem makesFrom_unique (h : makesFrom n targets y) (h' : makesFrom n targets' y) :
    targets = targets' := by
  obtain ⟨-, id, queues, options, ha, hr⟩ := h
  obtain ⟨-, _, _, _, ha', hr'⟩ := h'
  rw [ha] at ha'
  cases ha'
  exact Except.ok.inj (hr.symm.trans hr')

/-- Each channel that lives now was made once, out of the incarnations that are its sources. -/
structure Traced (past : List (Broker × Deed)) (b : Broker) : Prop where
  made_lt : ∀ y ∈ past, ∀ n targets, makesFrom n targets y → n < b.nextChannel
  unique : ∀ y ∈ past, ∀ y' ∈ past, ∀ n targets targets',
    makesFrom n targets y → makesFrom n targets' y' → targets = targets'
  sources : ∀ c ∈ b.channels, ∃ y ∈ past, ∃ targets, makesFrom c.serial targets y ∧
    ∀ t, t ∈ c.feeders ↔ t ∈ targets

theorem Traced.perform (h : Traced past b) (hl : b.Linked) (d : Deed) :
    Traced (past ++ [(b, d)]) (b.perform d) where
  made_lt y hy n targets hm := by
    rcases List.mem_append.mp hy with hy | hy
    · exact Nat.lt_of_lt_of_le (h.made_lt y hy n targets hm) (nextChannel_le_perform b d)
    · rw [List.mem_singleton.mp hy] at hm
      exact (makes_iff.mp hm.1).2
  unique y hy y' hy' n targets targets' hm hm' := by
    -- what is made now has a number that nothing had before
    rcases List.mem_append.mp hy with hy | hy
    · rcases List.mem_append.mp hy' with hy' | hy'
      · exact h.unique y hy y' hy' n targets targets' hm hm'
      · rw [List.mem_singleton.mp hy'] at hm'
        have hlt := h.made_lt y hy n targets hm
        have he := (makes_iff.mp hm'.1).1
        omega
    · rw [List.mem_singleton.mp hy] at hm
      rcases List.mem_append.mp hy' with hy' | hy'
      · have hlt := h.made_lt y' hy' n targets' hm'
        have he := (makes_iff.mp hm.1).1
        omega
      · rw [List.mem_singleton.mp hy'] at hm'
        exact makesFrom_unique hm hm'
  sources c' hc' := by
    rcases hl.mem_next hc' with ⟨c, hc, rfl⟩ |
      ⟨id, queues, options, ts, ha, rfl, hn, targets, hr, hts⟩
    · obtain ⟨y, hy, targets, hm, ht⟩ := h.sources c hc
      obtain ⟨hserial, -, hsources, -⟩ := Channel.of_bare (Channel.next_bare b d c)
      refine ⟨y, List.mem_append_left _ hy, targets, hserial ▸ hm, ?_⟩
      rw [Channel.feeders, hsources]
      exact ht
    · exact ⟨(b, d), List.mem_append_right _ List.mem_cons_self, targets,
        ⟨makes_next hn, id, queues, options, ha, hr⟩, hts⟩

theorem Traced.replay (h : Traced past b) (hl : b.Linked) (deeds : List Deed) :
    Traced (past ++ b.journal deeds) (b.replay deeds) := by
  induction deeds generalizing b past with
  | nil => rwa [journal, List.append_nil]
  | cons d rest ih =>
    have hrest := ih (h.perform hl d) (hl.perform d)
    rwa [List.append_assoc] at hrest

theorem Traced.new {settings : BrokerSettings} (hb : Broker.new settings = .ok b) :
    Traced [] b where
  made_lt _ hy := absurd hy List.not_mem_nil
  unique _ hy := absurd hy List.not_mem_nil
  sources c hc := by
    rw [Broker.new_eq hb] at hc
    exact absurd hc List.not_mem_nil

/-- A live channel has the sources that it was made from. -/
theorem Traced.mem_feeders_iff (h : Traced past b) {c : Channel} (hc : c ∈ b.channels) {t : Nat} :
    t ∈ c.feeders ↔ ∃ y ∈ past, ∃ targets, makesFrom c.serial targets y ∧ t ∈ targets := by
  obtain ⟨y, hy, targets, hm, ht⟩ := h.sources c hc
  rw [ht]
  constructor
  · exact fun hmem => ⟨y, hy, targets, hm, hmem⟩
  · rintro ⟨y', hy', targets', hm', hmem⟩
    rwa [h.unique y hy y' hy' _ _ _ hm hm']

/-! ## Channels that are gone -/

/-- A number that has been given and is not alive stays so. -/
theorem Linked.gone_perform (h : b.Linked) (hn : n < b.nextChannel) (hgone : ¬b.hasChannel n)
    (d : Deed) : n < (b.perform d).nextChannel ∧ ¬(b.perform d).hasChannel n := by
  refine ⟨Nat.lt_of_lt_of_le hn (nextChannel_le_perform b d), ?_⟩
  rintro ⟨c', hc', rfl⟩
  rcases h.mem_next hc' with ⟨c, hc, rfl⟩ | ⟨_, _, _, _, -, rfl, -⟩
  · exact hgone ⟨c, hc, (Channel.of_bare (Channel.next_bare b d c)).1.symm⟩
  · exact Nat.lt_irrefl _ hn

theorem Linked.gone_replay (h : b.Linked) (hn : n < b.nextChannel) (hgone : ¬b.hasChannel n)
    (deeds : List Deed) : ¬(b.replay deeds).hasChannel n := by
  induction deeds generalizing b with
  | nil => exact hgone
  | cons d rest ih =>
    obtain ⟨hn', hgone'⟩ := h.gone_perform hn hgone d
    exact ih (h.perform d) hn' hgone'

/-- A channel that is closed is gone. -/
theorem not_hasChannel_of_closes {d : Deed} (h : closes n (b, d) = true) :
    ¬(b.perform d).hasChannel n := by
  obtain ⟨m, action⟩ := d
  rintro ⟨c, hc, hs⟩
  cases action with
  | close serial =>
    obtain rfl : serial = n := beq_iff_eq.mp h
    simp only [Broker.perform] at hc
    split at hc
    · next c' hc' =>
      rw [closeChannel_channels, serial_of_at? hc'] at hc
      exact absurd hs (bne_iff_ne.mp (List.mem_filter.mp hc).2)
    · next hnone => exact at?_eq_none_iff.mp hnone c hc hs
  | drop => exact absurd hc List.not_mem_nil
  | _ => cases h

theorem Linked.gone_of_closes (h : b.Linked) (hy : y ∈ b.journal deeds)
    (hn : n < y.1.nextChannel) (hc : closes n y = true) : ¬(b.replay deeds).hasChannel n := by
  obtain ⟨before, after, rfl, he⟩ := replay_of_mem_journal hy
  obtain ⟨found, d⟩ := y
  obtain rfl : found = b.replay before := he
  rw [replay_append, replay_cons]
  exact ((h.replay before).perform d).gone_replay
    (Nat.lt_of_lt_of_le hn (nextChannel_le_perform _ d)) (not_hasChannel_of_closes hc) after

/-! ## Links -/

theorem attach_closed {c : Channel} (h : c.sources = none) (b : Broker) (targets : List Nat) :
    b.attach c targets = (c, b) := by
  simp only [attach, Channel.link, h, List.foldl_nil]

theorem Linked.mem_watchers_iff (h : b.Linked) (ht : Traced past b) {t : Nat} {q : Queue}
    (hq : b.registry.get? t = some q) : n ∈ q.watchers ↔ q.retired = false ∧ b.hasChannel n ∧
      ∃ y ∈ past, ∃ targets, makesFrom n targets y ∧ t ∈ targets := by
  rw [h.watcher_iff t q hq]
  refine and_congr_right fun _ => ?_
  constructor
  · rintro ⟨c, hc, rfl, hf⟩
    exact ⟨⟨c, hc, rfl⟩, (ht.mem_feeders_iff hc).mp hf⟩
  · rintro ⟨⟨c, hc, rfl⟩, hmade⟩
    exact ⟨c, hc, rfl, (ht.mem_feeders_iff hc).mpr hmade⟩

theorem Linked.watchers_of_retired (h : b.Linked) {t : Nat} {q : Queue}
    (hq : b.registry.get? t = some q) (hr : q.retired = true) : q.watchers = [] :=
  List.eq_nil_iff_forall_not_mem.mpr fun n hn => by
    have hlive := ((h.watcher_iff t q hq n).mp hn).1
    rw [hr] at hlive
    cases hlive

/-- Whatever has been done to a broker, an incarnation is watched by just the live channels that
were made from it, as long as it is registered; each is there once, and deliveries go by them as
they are. A retired incarnation keeps no watcher, and no incarnation keeps a channel that was
closed. A live channel has each incarnation that it was made from as a source once, and a closed one
is attached to none. What a session does to its broker is a list of deeds. -/
theorem watchers_exact {settings : BrokerSettings} (hb : Broker.new settings = .ok b)
    (deeds : List Deed) :
    (∀ t q, (b.replay deeds).registry.get? t = some q →
      (∀ n, n ∈ q.watchers ↔ q.retired = false ∧ (b.replay deeds).hasChannel n ∧
        ∃ y ∈ b.journal deeds, ∃ targets, makesFrom n targets y ∧ t ∈ targets) ∧
      (∀ n ∈ q.watchers, q.watchers.count n = 1) ∧
      q.published = q.watchers ∧
      (q.retired = true → q.watchers = [] ∧ q.published = [])) ∧
    (∀ c ∈ (b.replay deeds).channels, ∃ sources, c.sources = some sources ∧ sources.Nodup ∧
      ∀ t, t ∈ sources ↔
        ∃ y ∈ b.journal deeds, ∃ targets, makesFrom c.serial targets y ∧ t ∈ targets) ∧
    (∀ y ∈ b.journal deeds, ∀ n < y.1.nextChannel, closes n y = true →
      ¬(b.replay deeds).hasChannel n ∧ ∀ t q, (b.replay deeds).registry.get? t = some q →
        n ∉ q.watchers ∧ n ∉ q.published) ∧
    (∀ (found : Broker) (c : Channel) (targets : List Nat), c.close.sources = none ∧
      (c.sources = none → found.attach c targets = (c, found))) ∧
    ∀ supply m steps answers s, (Session.new supply b m).run steps = .ok (answers, s) →
      s.broker = b.replay ((Session.new supply b m).deeds steps) := by
  have hnew : b.Linked := .new hb
  have hlinked := hnew.replay deeds
  have htraced : Traced (b.journal deeds) (b.replay deeds) := (Traced.new hb).replay hnew deeds
  refine ⟨fun t q hq => ⟨fun n => hlinked.mem_watchers_iff htraced hq, fun n hn => ?_,
    hlinked.published t q hq, fun hr => ?_⟩, fun c hc => ?_, fun y hy n hn hc => ?_,
    fun found c targets => ⟨rfl, fun h => attach_closed h found targets⟩,
    fun supply m steps answers s hr => Session.run_replays hnew hr⟩
  · exact List.count_eq_one_of_mem (hlinked.watchers t q hq) hn
  · rw [hlinked.published t q hq]
    exact ⟨hlinked.watchers_of_retired hq hr, hlinked.watchers_of_retired hq hr⟩
  · obtain ⟨sources, hsources, hnodup, -⟩ := hlinked.sources c hc
    refine ⟨sources, hsources, hnodup, fun t => ?_⟩
    rw [← htraced.mem_feeders_iff hc, Channel.feeders, hsources, Option.getD_some]
  · have hgone := hnew.gone_of_closes hy hn hc
    refine ⟨hgone, fun t q hq => ?_⟩
    rw [hlinked.published t q hq, and_self]
    exact fun hw => hgone ((hlinked.mem_watchers_iff htraced hq).mp hw).2.1

/-- A queue is registered, watched and deleted, and its name is registered again: the channels that
were made before and after watch different incarnations, and one of them is closed. -/
def rewatching : List Deed :=
  [.createQueue "jobs", .createChannel ⟨Uuid.ofNat 0⟩ ["jobs", "jobs"] ⟨1, 1⟩, .retire "jobs",
    .createQueue "jobs", .createChannel ⟨Uuid.ofNat 1⟩ ["jobs", "jobs"] ⟨1, 1⟩,
    .createChannel ⟨Uuid.ofNat 2⟩ ["jobs"] ⟨1, 1⟩, .close 1].map fun action => ⟨⟨0, 0⟩, action⟩

theorem watchers_exact_rewatched : ∃ b, Broker.new {} = .ok b ∧
    (∃ q, (b.replay rewatching).registry.get? 0 = some q ∧ q.retired = true ∧ q.watchers = [] ∧
      q.published = []) ∧
    (∃ q, (b.replay rewatching).registry.get? 1 = some q ∧ q.retired = false ∧
      q.watchers = [2] ∧ q.published = [2] ∧ 1 ∉ q.watchers ∧
      ∃ y ∈ b.journal rewatching, ∃ targets, makesFrom 2 targets y ∧ 1 ∈ targets) ∧
    ¬(b.replay rewatching).hasChannel 1 := by
  obtain ⟨b, hb⟩ : ∃ b, Broker.new {} = .ok b := ⟨_, rfl⟩
  have hqueues : (b.replay rewatching).registry.queues =
      [⟨0, "jobs", true, 0, 0, [], []⟩, ⟨1, "jobs", false, 0, 0, [2], [2]⟩] := by
    cases hb
    decide +kernel
  have hfirst : (b.replay rewatching).registry.get? 0 =
      some ⟨0, "jobs", true, 0, 0, [], []⟩ := by rw [Registry.get?, hqueues]; rfl
  have hsecond : (b.replay rewatching).registry.get? 1 =
      some ⟨1, "jobs", false, 0, 0, [2], [2]⟩ := by rw [Registry.get?, hqueues]; rfl
  have hclose : (b.replay (rewatching.take 6), ⟨⟨0, 0⟩, .close 1⟩) ∈ b.journal rewatching := by
    rw [show rewatching = rewatching.take 6 ++ [⟨⟨0, 0⟩, .close 1⟩] from rfl, journal_append]
    exact List.mem_append_right _ List.mem_cons_self
  have hgiven : 1 < (b.replay (rewatching.take 6)).nextChannel := by
    cases hb
    decide +kernel
  obtain ⟨hlinks, -, hclosed, -⟩ := watchers_exact hb rewatching
  obtain ⟨-, -, -, hretired⟩ := hlinks 0 _ hfirst
  obtain ⟨hwatchers, -, hpublished, -⟩ := hlinks 1 _ hsecond
  obtain ⟨hgone, hnobody⟩ := hclosed _ hclose 1 hgiven rfl
  exact ⟨b, hb, ⟨_, hfirst, rfl, hretired rfl⟩, ⟨_, hsecond, rfl, rfl, hpublished,
    (hnobody 1 _ hsecond).1, ((hwatchers 2).mp List.mem_cons_self).2.2⟩, hgone⟩

end Broker

end EventBroker
