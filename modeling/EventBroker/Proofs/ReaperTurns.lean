import EventBroker.Proofs.Clocks
import EventBroker.Proofs.Rest

/-! # The turns of the reapers

The `chronicle` of a run has every time that the tasks run, with the session that they find and with
what has happened until then. Read as a `Course`, it goes from one such time to the next: time
passes or the caller takes a step, and then the tasks run. What holds of every course holds of every
run (`course_run`): that time goes on (`Course.onward`), and that a reaper with an interval has its
turns in equal distances from its start, none early, late or left out (`reaper_turns`).
-/
set_option autoImplicit false

namespace EventBroker

/-- Whether it is a reaper's turn. -/
def Reaper.isDue (m : Moment) (r : Reaper) : Bool := r.next.any (· ≤ m.mono)

namespace Session

/-! ## Chronicles -/

/-- A time that the tasks run: what has happened until then, and the session that they find. -/
structure Beat where
  past : List (Broker × Deed)
  found : Session

/-- The tasks run again and again, and nobody does anything else. -/
def beatsFrom : List (Broker × Deed) → List Session → List Beat
  | _, [] => []
  | past, found :: rest =>
    ⟨past, found⟩ :: beatsFrom (past ++ found.broker.journal found.taskDeeds) rest

/-- All the times that the tasks run in the course of some steps. -/
def chronicle : List (Broker × Deed) → Session → List Step → List Beat
  | _, _, [] => []
  | past, s, x :: rest =>
    beatsFrom (past ++ s.broker.journal (s.callerDeeds x)) (s.beats x) ++
      match s.step x with
      | .ok (_, s') => chronicle (past ++ s.broker.journal (s.stepDeeds x)) s' rest
      | .error _ => []

/-- Whether it is the turn of the reaper in some place. -/
def Beat.isTurn (e : Beat) (place : Nat) : Bool :=
  e.found.reapers[place]?.any (·.isDue e.found.moment)

variable {s s' mid found left : Session} {x : Step} {a : Answer} {steps : List Step}
  {answers : List Answer} {past past' : List (Broker × Deed)} {beats : List Beat}

theorem chronicle_cons (hx : s.step x = .ok (a, mid)) (past : List (Broker × Deed))
    (rest : List Step) : chronicle past s (x :: rest) =
      beatsFrom (past ++ s.broker.journal (s.callerDeeds x)) (s.beats x) ++
        chronicle (past ++ s.broker.journal (s.stepDeeds x)) mid rest := by
  simp only [chronicle, hx]

theorem chronicle_append (h : s.broker.Linked) (hr : s.run steps = .ok (answers, mid))
    (past : List (Broker × Deed)) (rest : List Step) : chronicle past s (steps ++ rest) =
      chronicle past s steps ++ chronicle (past ++ s.journal steps) mid rest := by
  induction steps generalizing s answers past with
  | nil =>
    cases hr
    simp [chronicle, journal, deeds, Broker.journal]
  | cons x steps ih =>
    obtain ⟨a, mid', later, hx, hr, -⟩ := run_cons_eq_ok_iff.mp hr
    rw [List.cons_append, chronicle_cons hx, chronicle_cons hx, ih (linked_step h hx) hr,
      journal_cons h hx, List.append_assoc, List.append_assoc]

/-! ## Courses -/

/-- What can happen to a session until the tasks run again: time passes, no more than a millisecond
if a task waits for it, or the caller takes a step of some kind. -/
inductive Stirred (allowed : Session → Step → Prop) (past : List (Broker × Deed)) (s : Session) :
    List (Broker × Deed) → Session → Prop
  | time (n : Nat) (hn : s.isWaiting = true → n ≤ 1) :
    Stirred allowed past s past { s with moment := s.moment.after n }
  | acted {x : Step} {a : Answer} {found : Session} (ht : ∀ ms, x ≠ .advance ms)
      (hx : allowed s x) (ha : s.act x = .ok (a, found)) :
    Stirred allowed past s (past ++ s.broker.journal (s.callerDeeds x)) found

/-- From one time that the tasks run to the next. -/
inductive Course (allowed : Session → Step → Prop) :
    List (Broker × Deed) → Session → List Beat → List (Broker × Deed) → Session → Prop
  | rest (past : List (Broker × Deed)) (s : Session) : Course allowed past s [] past s
  | beat {past past' past'' : List (Broker × Deed)} {s found left s' : Session} {beats : List Beat}
      (hb : Stirred allowed past s past' found) (hs : found.settle = .ok left) (hrest :
        Course allowed (past' ++ found.broker.journal found.taskDeeds) left beats past'' s') :
    Course allowed past s (⟨past', found⟩ :: beats) past'' s'

variable {allowed : Session → Step → Prop}

theorem Stirred.still (past : List (Broker × Deed)) (s : Session) :
    Stirred allowed past s past s := by
  have h : Stirred allowed past s past { s with moment := s.moment.after 0 } :=
    .time 0 fun _ => Nat.zero_le 1
  rwa [Moment.after_zero] at h

theorem Stirred.linked (h : s.broker.Linked) (hb : Stirred allowed past s past' found) :
    found.broker.Linked := by
  cases hb with
  | time n hn => exact h
  | acted ht hx ha => exact linked_act h ha

theorem Course.append {past'' : List (Broker × Deed)} {beats' : List Beat}
    (h : Course allowed past s beats past' mid) (h' : Course allowed past' mid beats' past'' s') :
    Course allowed past s (beats ++ beats') past'' s' := by
  induction h with
  | rest => exact h'
  | beat hb hs _ ih => exact .beat hb hs (ih h')

theorem Course.single (hb : Stirred allowed past s past' found) (hs : found.settle = .ok s') :
    Course allowed past s (beatsFrom past' [found])
      (past' ++ found.broker.journal found.taskDeeds) s' :=
  .beat hb hs (.rest _ _)

/-- Milliseconds pass, and then the tasks run once more. -/
theorem course_pass {n : Nat} (h : s.broker.Linked) (hp : pass n s = .ok mid)
    (hs : mid.settle = .ok s') (past : List (Broker × Deed)) :
    Course allowed past s (beatsFrom past (passBeats n s ++ [mid]))
      (past ++ s.broker.journal ((passBeats n s ++ [mid]).flatMap taskDeeds)) s' := by
  induction n generalizing s past with
  | zero =>
    cases hp
    simpa [passBeats] using Course.single (.still past mid) hs
  | succ n ih =>
    obtain ⟨left, ht, hrest⟩ := pass_succ_eq_ok_iff.mp hp
    have hleft : left.broker = s.broker.replay (taskDeeds { s with moment := s.moment.after 1 }) :=
      settle_replays (s := { s with moment := s.moment.after 1 }) h ht
    have hl : left.broker.Linked := linked_settle (s := { s with moment := s.moment.after 1 }) h ht
    have hcourse := ih hl hrest
      (past ++ s.broker.journal (taskDeeds { s with moment := s.moment.after 1 }))
    simp only [passBeats, ht, List.cons_append, List.flatMap_cons, Broker.journal_append, ← hleft,
      ← List.append_assoc]
    exact .beat (.time 1 fun _ => Nat.le_refl 1) ht hcourse

theorem course_step (h : s.broker.Linked) (hx : allowed s x) (hs : s.step x = .ok (a, s'))
    (past : List (Broker × Deed)) :
    Course allowed past s (beatsFrom (past ++ s.broker.journal (s.callerDeeds x)) (s.beats x))
      (past ++ s.broker.journal (s.stepDeeds x)) s' := by
  obtain ⟨acted, ha, ht⟩ := step_eq_ok_iff.mp hs
  by_cases hadv : ∃ ms, x = .advance ms
  · obtain ⟨ms, rfl⟩ := hadv
    obtain ⟨end', hp, he⟩ := map_eq_ok_iff.mp ha
    cases he
    simp only [stepDeeds, beats, ha, callerDeeds, innerBeats, Broker.journal, List.append_nil,
      List.nil_append]
    unfold advance at hp
    by_cases hw : s.isWaiting = true
    · rw [if_pos hw] at hp
      rw [if_pos hw]
      exact course_pass h hp ht past
    · rw [if_neg hw] at hp
      cases hp
      rw [if_neg hw]
      simpa using Course.single (.time ms fun hw' => absurd hw' hw) ht
  · have hadv' : ∀ ms, x ≠ .advance ms := fun ms he => hadv ⟨ms, he⟩
    have hbeats : s.beats x = [acted] := by
      rw [beats, ha]
      cases x with
      | advance ms => exact absurd rfl (hadv' ms)
      | _ => rfl
    have hstirred : Stirred allowed past s (past ++ s.broker.journal (s.callerDeeds x)) acted :=
      .acted hadv' hx ha
    have hcourse := Course.single hstirred ht
    rwa [act_replays h hadv' ha, List.append_assoc, ← Broker.journal_append, ← hbeats,
      show s.callerDeeds x ++ acted.taskDeeds = s.stepDeeds x by simp [stepDeeds, hbeats]]
      at hcourse

theorem course_run (h : s.broker.Linked) (hx : ∀ y ∈ s.trail steps, allowed y.1 y.2)
    (hr : s.run steps = .ok (answers, s')) (past : List (Broker × Deed)) :
    Course allowed past s (chronicle past s steps) (past ++ s.journal steps) s' := by
  induction steps generalizing s answers past with
  | nil =>
    cases hr
    simpa [chronicle, journal, deeds, Broker.journal] using Course.rest past s'
  | cons x rest ih =>
    obtain ⟨a, mid, later, hs, hr, -⟩ := run_cons_eq_ok_iff.mp hr
    rw [trail_eq hs, List.forall_mem_cons] at hx
    rw [chronicle_cons hs, journal_cons h hs, ← List.append_assoc]
    exact (course_step h hx.1 hs past).append (ih (linked_step h hs) hx.2 hr _)

/-- Where steps are of some kind, a run of them is a course of steps of that kind. -/
theorem course_run_of_steps {ok : Step → Prop} (h : s.broker.Linked) (hx : ∀ x ∈ steps, ok x)
    (hr : s.run steps = .ok (answers, s')) (past : List (Broker × Deed)) :
    Course (fun _ => ok) past s (chronicle past s steps) (past ++ s.journal steps) s' := by
  refine course_run h (fun y hy => hx y.2 ?_) hr past
  rw [← map_trail hr]
  exact List.mem_map_of_mem hy

/-! ## Time in a course -/

/-- Later, more has happened: nothing of it was before the earlier moment. -/
structure Onward (R : Moment → Moment → Prop) (past : List (Broker × Deed)) (m : Moment)
    (past' : List (Broker × Deed)) (m' : Moment) : Prop where
  moment : R m m'
  deeds : ∃ later, past' = past ++ later ∧ ∀ y ∈ later, R m y.2.moment

section Onward

variable {R : Moment → Moment → Prop} (hafter : ∀ m n, R m (m.after n))
  (htrans : ∀ m m' m'', R m m' → R m' m'' → R m m'')
  (hwall : ∀ s x, allowed s x → x.setsWall = true → ∀ m wall, R m (m.withWall wall))

include htrans in
theorem Onward.trans {past'' : List (Broker × Deed)} {m m' m'' : Moment}
    (h : Onward R past m past' m') (h' : Onward R past' m' past'' m'') :
    Onward R past m past'' m'' := by
  obtain ⟨later, rfl, hlater⟩ := h.deeds
  obtain ⟨later', rfl, hlater'⟩ := h'.deeds
  refine ⟨htrans _ _ _ h.moment h'.moment, later ++ later', List.append_assoc .., fun y hy => ?_⟩
  rcases List.mem_append.mp hy with hy | hy
  · exact hlater y hy
  · exact htrans _ _ _ h.moment (hlater' y hy)

include hafter in
theorem onward_settle (h : found.broker.Linked) (hs : found.settle = .ok left)
    (past : List (Broker × Deed)) : Onward R past found.moment
      (past ++ found.broker.journal found.taskDeeds) left.moment := by
  have hrefl : R found.moment found.moment := by
    simpa [Moment.after_zero] using hafter found.moment 0
  refine ⟨settle_moment h hs ▸ hrefl, _, rfl, fun y hy => ?_⟩
  rw [taskDeeds_moment (Broker.mem_of_mem_journal hy)]
  exact hrefl

include hafter hwall in
theorem Stirred.onward (h : s.broker.Linked) (hb : Stirred allowed past s past' found) :
    Onward R past s.moment past' found.moment := by
  have hrefl : R s.moment s.moment := by simpa [Moment.after_zero] using hafter s.moment 0
  cases hb with
  | time n hn => exact ⟨hafter _ _, [], (List.append_nil _).symm, fun _ hy => nomatch hy⟩
  | acted ht hx ha =>
    refine ⟨?_, _, rfl, fun y hy => ?_⟩
    · rcases act_moment h ha with ⟨n, hn⟩ | ⟨hw, wall, hn⟩
      · rw [hn]
        exact hafter _ _
      · rw [hn]
        exact hwall _ _ hx hw _ _
    · rw [callerDeeds_moment (Broker.mem_of_mem_journal hy)]
      exact hrefl

include hafter htrans hwall in
theorem Course.onward (h : s.broker.Linked) (hc : Course allowed past s beats past' s') :
    Onward R past s.moment past' s'.moment ∧
      ∀ e ∈ beats, Onward R e.past e.found.moment past' s'.moment := by
  induction hc with
  | rest past s =>
    exact ⟨(Stirred.still past s).onward hafter hwall h, fun _ he => nomatch he⟩
  | beat hb hs _ ih =>
    have hl := hb.linked h
    obtain ⟨hend, hbeats⟩ := ih (linked_settle hl hs)
    have hfound := Onward.trans htrans (onward_settle hafter hl hs _) hend
    exact ⟨Onward.trans htrans (hb.onward hafter hwall h) hfound,
      List.forall_mem_cons.mpr ⟨hfound, hbeats⟩⟩

end Onward

/-! ## The turns of one reaper -/

/-- Reapers are only added, as long as the broker is not dropped. -/
theorem Stirred.reapers (hb : Stirred (fun _ x => x.isDrop = false) past s past' found) :
    ∃ more, found.reapers = s.reapers ++ more := by
  cases hb with
  | time n hn => exact ⟨[], (List.append_nil _).symm⟩
  | @acted x a found ht hx ha =>
    by_cases hstart : x.startsReaper = true
    · cases x with
      | startReaper timeout interval =>
        cases ha
        exact ⟨_, rfl⟩
      | _ => cases hstart
    · refine ⟨[], ?_⟩
      rw [(act_acted ht hx ha).reapers (Bool.eq_false_iff.mpr hstart), List.append_nil]

/-- Nobody has a place that is given later. -/
theorem Course.reapers_length (hc : Course (fun _ x => x.isDrop = false) past s beats past' s') :
    s.reapers.length ≤ s'.reapers.length ∧
      ∀ e ∈ beats, e.found.reapers.length ≤ s'.reapers.length := by
  induction hc with
  | rest => exact ⟨Nat.le_refl _, fun _ he => nomatch he⟩
  | beat hb hs _ ih =>
    obtain ⟨more, hmore⟩ := hb.reapers
    rw [settle_reapers hs, List.length_map] at ih
    refine ⟨Nat.le_trans ?_ ih.1, List.forall_mem_cons.mpr ih⟩
    rw [hmore, List.length_append]
    exact Nat.le_add_right _ _

/-- A reaper that the tasks will find in time for its next turn. -/
structure Comes (place timeout interval next : Nat) (s : Session) : Prop where
  reaper : s.reapers[place]? = some ⟨timeout, interval, some next⟩
  inTime : s.moment.mono ≤ next
  near : next ≤ s.moment.mono + interval

/-- A reaper that waits for its next turn. -/
structure Waits (place timeout interval next : Nat) (s : Session) : Prop
    extends Comes place timeout interval next s where
  ahead : s.moment.mono < next

variable {place timeout interval next : Nat}

theorem Comes.isTurn (h : Comes place timeout interval next found) (past : List (Broker × Deed)) :
    Beat.isTurn ⟨past, found⟩ place = true ↔ next = found.moment.mono := by
  have := h.inTime
  simp only [Beat.isTurn, h.reaper, Option.any_some, Reaper.isDue, decide_eq_true_eq]
  omega

theorem Waits.stirred (h : Waits place timeout interval next s)
    (hb : Stirred (fun _ x => x.isDrop = false) past s past' found) :
    Comes place timeout interval next found := by
  have hlt : place < s.reapers.length := (List.getElem?_eq_some_iff.mp h.reaper).1
  obtain ⟨more, hmore⟩ := hb.reapers
  have hahead := h.ahead
  have hnear := h.near
  refine ⟨by rw [hmore, List.getElem?_append_left hlt, h.reaper], ?_, ?_⟩
  all_goals
    cases hb with
    | time n hn =>
      have hwaits : s.isWaiting = true := by
        simp [isWaiting, List.ne_nil_of_length_pos (Nat.zero_lt_of_lt hlt)]
      have := hn hwaits
      simp only [Moment.after]
      omega
    | acted ht hx ha =>
      rw [(act_acted ht hx ha).mono]
      omega

/-- After its turn a reaper waits for the next one. -/
theorem Comes.settle (hpos : 0 < interval) (h : Comes place timeout interval next found)
    (hl : found.broker.Linked) (hs : found.settle = .ok left) :
    Waits place timeout interval
      (if next = found.moment.mono then next + interval else next) left := by
  have hm := settle_moment hl hs
  have hin := h.inTime
  have hnear := h.near
  refine ⟨⟨?_, ?_, ?_⟩, ?_⟩
  · rw [settle_reapers hs, List.getElem?_map, h.reaper]
    have hdue : next ≤ found.moment.mono ↔ next = found.moment.mono := by omega
    simp [Reaper.turned, hdue]
  all_goals
    rw [hm]
    split <;> omega

theorem Waits.turns (hpos : 0 < interval) (hl : s.broker.Linked)
    (h : Waits place timeout interval next s)
    (hc : Course (fun _ x => x.isDrop = false) past s beats past' s') :
    (∃ n, (beats.filter (·.isTurn place)).map (·.found.moment.mono) = List.range' next n interval ∧
      Waits place timeout interval (next + n * interval) s') ∧
      ∀ e ∈ beats, ∀ r ∈ e.found.reapers[place]?, r.timeout = timeout ∧ r.interval = interval := by
  induction hc generalizing next with
  | rest =>
    refine ⟨⟨0, rfl, ?_⟩, fun _ he => nomatch he⟩
    rwa [Nat.zero_mul, Nat.add_zero]
  | @beat past past' past'' s found left s' beats hb hs _ ih =>
    have hcomes := h.stirred hb
    have hlf := hb.linked hl
    obtain ⟨⟨n, hturns, hwaits⟩, hothers⟩ := ih (linked_settle hlf hs) (hcomes.settle hpos hlf hs)
    refine ⟨?_, List.forall_mem_cons.mpr ⟨fun r hr => ?_, hothers⟩⟩
    · by_cases hturn : next = found.moment.mono
      · rw [if_pos hturn] at hturns hwaits
        refine ⟨n + 1, ?_, ?_⟩
        · rw [List.filter_cons, if_pos ((hcomes.isTurn past').mpr hturn), List.map_cons, hturns,
            List.range'_succ, ← hturn]
        · rwa [Nat.succ_mul, Nat.add_comm (n * interval), ← Nat.add_assoc]
      · rw [if_neg hturn] at hturns hwaits
        refine ⟨n, ?_, hwaits⟩
        rw [List.filter_cons, if_neg (mt (hcomes.isTurn past').mp hturn), hturns]
    · rw [hcomes.reaper] at hr
      cases hr
      exact ⟨rfl, rfl⟩

/-- A reaper that is started has its first turn at once, and then one after each interval. -/
theorem turns_of_start {after : List Step} (hpos : 0 < interval) (h : s.broker.Linked)
    (hr : s.run (.startReaper timeout interval :: after) = .ok (answers, s'))
    (hd : ∀ x ∈ after, x.isDrop = false)
    (hbeats : beats = chronicle past s (.startReaper timeout interval :: after)) :
    (beats.filter (·.isTurn s.reapers.length)).map (·.found.moment.mono) =
        List.range' s.moment.mono ((s'.moment.mono - s.moment.mono) / interval + 1) interval ∧
      ∀ e ∈ beats, ∀ r ∈ e.found.reapers[s.reapers.length]?,
        r.timeout = timeout ∧ r.interval = interval := by
  obtain ⟨a, left, later, hx, hr, -⟩ := run_cons_eq_ok_iff.mp hr
  obtain ⟨found, ha, hs⟩ := step_eq_ok_iff.mp hx
  have hone : s.beats (.startReaper timeout interval) = [found] := by
    rw [Session.beats, ha]
    rfl
  have hlf := linked_act h ha
  have hcomes : Comes s.reapers.length timeout interval s.moment.mono found := by
    cases ha
    refine ⟨?_, Nat.le_refl _, Nat.le_add_right _ _⟩
    rw [List.getElem?_append_right (Nat.le_refl _), Nat.sub_self, if_neg (Nat.ne_of_gt hpos)]
    rfl
  have hmono : found.moment.mono = s.moment.mono := by
    cases ha
    rfl
  have hwaits := hcomes.settle hpos hlf hs
  rw [if_pos hmono.symm] at hwaits
  obtain ⟨⟨n, hturns, hend⟩, hothers⟩ := hwaits.turns hpos (linked_step h hx)
    (course_run_of_steps (linked_step h hx) hd hr
      (past ++ s.broker.journal (s.stepDeeds (.startReaper timeout interval))))
  rw [chronicle_cons hx, hone] at hbeats
  subst hbeats
  refine ⟨?_, List.forall_mem_cons.mpr ⟨fun r hr => ?_, hothers⟩⟩
  · have hn : (s'.moment.mono - s.moment.mono) / interval = n := by
      have hahead := hend.ahead
      have hnear := hend.near
      rw [Nat.div_eq_iff hpos]
      rw [Nat.add_right_comm] at hahead hnear
      constructor <;> omega
    simp only [beatsFrom, List.singleton_append]
    rw [List.filter_cons, if_pos ((hcomes.isTurn _).mpr hmono.symm), List.map_cons, hturns, hn,
      List.range'_succ, hmono]
  · rw [hcomes.reaper] at hr
    cases hr
    exact ⟨rfl, rfl⟩

/-- Before it is started it has none. -/
theorem reaper_turns {before after : List Step} {earlier later : List Answer} (h : s.broker.Linked)
    (hpos : 0 < interval) (hb : s.run before = .ok (earlier, mid))
    (hr : mid.run (.startReaper timeout interval :: after) = .ok (later, s'))
    (hd : ∀ x ∈ before ++ .startReaper timeout interval :: after, x.isDrop = false)
    (hbeats : beats = chronicle past s (before ++ .startReaper timeout interval :: after)) :
    (beats.filter (·.isTurn mid.reapers.length)).map (·.found.moment.mono) =
        List.range' mid.moment.mono ((s'.moment.mono - mid.moment.mono) / interval + 1) interval ∧
      ∀ e ∈ beats, ∀ r ∈ e.found.reapers[mid.reapers.length]?,
        r.timeout = timeout ∧ r.interval = interval := by
  rw [List.forall_mem_append, List.forall_mem_cons] at hd
  obtain ⟨-, hnone⟩ := (course_run_of_steps h hd.1 hb past).reapers_length
  obtain ⟨hturns, hothers⟩ := turns_of_start hpos (linked_run h hb) hr hd.2.2 rfl
  have hnil : (chronicle past s before).filter (·.isTurn mid.reapers.length) = [] := by
    rw [List.filter_eq_nil_iff]
    intro e he
    rw [Beat.isTurn, List.getElem?_eq_none (hnone e he)]
    exact Bool.false_ne_true
  rw [hbeats, chronicle_append h hb]
  refine ⟨?_, List.forall_mem_append.mpr ⟨fun e he r hr => ?_, hothers⟩⟩
  · rw [List.filter_append, hnil, List.nil_append, hturns]
  · rw [List.getElem?_eq_none (hnone e he)] at hr
    cases hr

end Session

end EventBroker
