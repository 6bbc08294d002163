import EventBroker.Proofs.SessionDeeds

/-! # Runs of a session

The tasks run again and again: after each millisecond that passes while something waits for time to
pass, and after every step. `Session.beats` are the sessions that they find. `Session.deeds` are the
deeds of a list of steps, the caller's and the tasks', and `run_replays` says that the broker at the
end of a run is the broker at its start with those deeds done to it.
-/
set_option autoImplicit false

namespace EventBroker

/-- Identifiers counted up from zero. -/
def IdSupply.counting : IdSupply := ⟨fun n => ⟨Uuid.ofNat n⟩, fun n => ⟨Uuid.ofNat n⟩⟩

namespace Session

/-! ## Steps one after another -/

theorem step_eq_ok_iff {s s' : Session} {x : Step} {a : Answer} :
    s.step x = .ok (a, s') ↔ ∃ acted, s.act x = .ok (a, acted) ∧ acted.settle = .ok s' := by
  simp only [step, bind_eq_ok_iff, pure, Except.pure, Except.ok.injEq, Prod.mk.injEq]
  constructor
  · rintro ⟨⟨_, acted⟩, ha, _, hs, rfl, rfl⟩
    exact ⟨acted, ha, hs⟩
  · rintro ⟨acted, ha, hs⟩
    exact ⟨(a, acted), ha, s', hs, rfl, rfl⟩

theorem run_cons_eq_ok_iff {s s' : Session} {x : Step} {rest : List Step} {answers : List Answer} :
    s.run (x :: rest) = .ok (answers, s') ↔ ∃ a mid later, s.step x = .ok (a, mid) ∧
      mid.run rest = .ok (later, s') ∧ answers = a :: later := by
  simp only [run, bind_eq_ok_iff, pure, Except.pure, Except.ok.injEq, Prod.mk.injEq]
  constructor
  · rintro ⟨⟨a, mid⟩, hx, ⟨later, _⟩, hr, rfl, rfl⟩
    exact ⟨a, mid, later, hx, hr, rfl⟩
  · rintro ⟨a, mid, later, hx, hr, rfl⟩
    exact ⟨(a, mid), hx, (later, s'), hr, rfl, rfl⟩

theorem run_append_eq_ok_iff {s s' : Session} {steps steps' : List Step} {answers : List Answer} :
    s.run (steps ++ steps') = .ok (answers, s') ↔ ∃ earlier later mid,
      s.run steps = .ok (earlier, mid) ∧ mid.run steps' = .ok (later, s') ∧
        answers = earlier ++ later := by
  induction steps generalizing s answers with
  | nil => simp [run]
  | cons x rest ih =>
    rw [List.cons_append]
    simp only [run_cons_eq_ok_iff, ih]
    constructor
    · rintro ⟨a, mid, _, hx, ⟨earlier, later, mid', hr, hr', rfl⟩, rfl⟩
      exact ⟨a :: earlier, later, mid', ⟨a, mid, earlier, hx, hr, rfl⟩, hr', rfl⟩
    · rintro ⟨_, later, mid', ⟨a, mid, earlier, hx, hr, rfl⟩, hr', rfl⟩
      exact ⟨a, mid, earlier ++ later, hx, ⟨earlier, later, mid', hr, hr', rfl⟩, rfl⟩

theorem run_concat {s prior made : Session} {steps : List Step} {x : Step} {earlier : List Answer}
    {a : Answer} (hr : s.run steps = .ok (earlier, prior)) (hx : prior.step x = .ok (a, made)) :
    s.run (steps ++ [x]) = .ok (earlier ++ [a], made) :=
  run_append_eq_ok_iff.mpr ⟨earlier, [a], prior, hr,
    run_cons_eq_ok_iff.mpr ⟨a, made, [], hx, rfl, rfl⟩, rfl⟩

/-- Whether a run comes to its end, with answers and in a session of some kind. -/
def endsWith (r : Except Crash (List Answer × Session)) (p : List Answer → Session → Bool) : Bool :=
  match r with
  | .ok (answers, s) => p answers s
  | .error _ => false

theorem of_endsWith {r : Except Crash (List Answer × Session)} {p : List Answer → Session → Bool}
    (h : endsWith r p = true) : ∃ answers s, r = .ok (answers, s) ∧ p answers s = true := by
  cases r with
  | error e => cases h
  | ok q => exact ⟨q.1, q.2, rfl, h⟩

/-- The steps of a run, each with the session in which it is taken. -/
def trail : Session → List Step → List (Session × Step)
  | _, [] => []
  | s, x :: rest => (s, x) :: match s.step x with
    | .ok (_, s) => trail s rest
    | .error _ => []

theorem trail_eq {s mid : Session} {x : Step} {a : Answer} (hx : s.step x = .ok (a, mid))
    (rest : List Step) : s.trail (x :: rest) = (s, x) :: mid.trail rest := by
  simp only [trail, hx]

theorem map_trail {s s' : Session} {steps : List Step} {answers : List Answer}
    (hr : s.run steps = .ok (answers, s')) : (s.trail steps).map (·.2) = steps := by
  induction steps generalizing s answers with
  | nil => rfl
  | cons x rest ih =>
    obtain ⟨a, mid, later, hx, hr, -⟩ := run_cons_eq_ok_iff.mp hr
    rw [trail_eq hx, List.map_cons, ih hr]

/-- A step of a run divides it. -/
theorem split_of_trail {s s' : Session} {steps : List Step} {answers : List Answer}
    {ys zs : List (Session × Step)} {y : Session × Step} (hr : s.run steps = .ok (answers, s'))
    (ht : s.trail steps = ys ++ y :: zs) :
    ∃ before after earlier a mid later, steps = before ++ y.2 :: after ∧
      s.run before = .ok (earlier, y.1) ∧ y.1.step y.2 = .ok (a, mid) ∧
      mid.run after = .ok (later, s') ∧ mid.trail after = zs := by
  induction steps generalizing s answers ys with
  | nil => cases (List.append_eq_nil_iff.mp ht.symm).2
  | cons x rest ih =>
    obtain ⟨a, mid, later, hx, hr, -⟩ := run_cons_eq_ok_iff.mp hr
    rw [trail_eq hx] at ht
    cases ys with
    | nil =>
      obtain ⟨rfl, hz⟩ := List.cons.inj ht
      exact ⟨[], rest, [], a, mid, later, rfl, rfl, hx, hr, hz⟩
    | cons _ ys =>
      obtain ⟨before, after, earlier, a', mid', later', rfl, hb, hx', ha, ht'⟩ :=
        ih hr (List.cons.inj ht).2
      exact ⟨x :: before, after, a :: earlier, a', mid', later', rfl,
        run_cons_eq_ok_iff.mpr ⟨a, mid, earlier, hx, hb, rfl⟩, hx', ha, ht'⟩

/-! ## Beats -/

/-- The sessions that the tasks find while milliseconds pass. -/
def passBeats : Nat → Session → List Session
  | 0, _ => []
  | n + 1, s =>
    let found := { s with moment := s.moment.after 1 }
    found :: match found.settle with
      | .ok s => passBeats n s
      | .error _ => []

/-- The sessions that the tasks find while the time of a step passes. -/
def innerBeats (s : Session) : Step → List Session
  | .advance ms => if s.isWaiting then passBeats ms s else []
  | _ => []

/-- The sessions that the tasks find in the course of a step. -/
def beats (s : Session) (x : Step) : List Session :=
  s.innerBeats x ++ match s.act x with
  | .ok (_, acted) => [acted]
  | .error _ => []

/-- What happens to the broker in the course of a step. -/
def stepDeeds (s : Session) (x : Step) : List Deed :=
  s.callerDeeds x ++ (s.beats x).flatMap taskDeeds

/-- What happens to the broker in the course of some steps. -/
def deeds : Session → List Step → List Deed
  | _, [] => []
  | s, x :: rest => s.stepDeeds x ++ match s.step x with
    | .ok (_, s) => deeds s rest
    | .error _ => []

/-- A millisecond passes, and then the others. -/
theorem pass_succ_eq_ok_iff {n : Nat} {s s' : Session} : pass (n + 1) s = .ok s' ↔
    ∃ mid, settle { s with moment := s.moment.after 1 } = .ok mid ∧ pass n mid = .ok s' := by
  simp only [pass]
  cases settle { s with moment := s.moment.after 1 } with
  | error e => simp
  | ok mid => simp

theorem pass_replays {n : Nat} {s s' : Session} (h : s.broker.Linked) (hp : pass n s = .ok s') :
    s'.broker = s.broker.replay ((passBeats n s).flatMap taskDeeds) := by
  induction n generalizing s with
  | zero =>
    cases hp
    rfl
  | succ n ih =>
    obtain ⟨mid, hs, hrest⟩ := pass_succ_eq_ok_iff.mp hp
    have hb := settle_replays (s := { s with moment := s.moment.after 1 }) h hs
    have hl : mid.broker.Linked := hb ▸ h.replay _
    simp only [passBeats, hs, List.flatMap_cons, Broker.replay_append]
    rw [ih hl hrest, hb]

/-- What a step does before the tasks run for the last time. -/
theorem acted_replays {s s' : Session} {x : Step} {a : Answer} (h : s.broker.Linked)
    (ha : s.act x = .ok (a, s')) : s'.broker =
      s.broker.replay (s.callerDeeds x ++ (s.innerBeats x).flatMap taskDeeds) := by
  by_cases hx : ∃ ms, x = .advance ms
  · obtain ⟨ms, rfl⟩ := hx
    obtain ⟨s₁, hp, he⟩ := map_eq_ok_iff.mp ha
    cases he
    simp only [callerDeeds, List.nil_append, innerBeats]
    unfold advance at hp
    split at hp
    · next hw =>
      rw [if_pos hw]
      exact pass_replays h hp
    · next hw =>
      rw [if_neg hw]
      cases hp
      rfl
  · have hx' : ∀ ms, x ≠ .advance ms := fun ms he => hx ⟨ms, he⟩
    rw [act_replays h hx' ha]
    cases x with
    | advance ms => exact absurd rfl (hx' ms)
    | _ => simp [innerBeats]

theorem step_replays {s s' : Session} {x : Step} {a : Answer} (h : s.broker.Linked)
    (hs : s.step x = .ok (a, s')) : s'.broker = s.broker.replay (s.stepDeeds x) := by
  obtain ⟨acted, ha, ht⟩ := step_eq_ok_iff.mp hs
  have hacted := acted_replays h ha
  have hl : acted.broker.Linked := hacted ▸ h.replay _
  rw [settle_replays hl ht, hacted, ← Broker.replay_append]
  simp [stepDeeds, beats, ha]

theorem run_replays {s s' : Session} {steps : List Step} {answers : List Answer}
    (h : s.broker.Linked) (hr : s.run steps = .ok (answers, s')) :
    s'.broker = s.broker.replay (s.deeds steps) := by
  induction steps generalizing s answers with
  | nil =>
    cases hr
    rfl
  | cons x rest ih =>
    obtain ⟨a, mid, later, hx, hr, -⟩ := run_cons_eq_ok_iff.mp hr
    have hb := step_replays h hx
    have hl : mid.broker.Linked := hb ▸ h.replay _
    simp only [deeds, hx, Broker.replay_append, ← hb]
    exact ih hl hr

theorem deeds_append {s mid : Session} {steps : List Step} {answers : List Answer}
    (hr : s.run steps = .ok (answers, mid)) (steps' : List Step) :
    s.deeds (steps ++ steps') = s.deeds steps ++ mid.deeds steps' := by
  induction steps generalizing s answers with
  | nil =>
    cases hr
    rfl
  | cons x rest ih =>
    obtain ⟨a, mid', later, hx, hr, -⟩ := run_cons_eq_ok_iff.mp hr
    simp only [List.cons_append, deeds, hx, ih hr, List.append_assoc]

theorem linked_act {s s' : Session} {x : Step} {a : Answer} (h : s.broker.Linked)
    (ha : s.act x = .ok (a, s')) : s'.broker.Linked := by
  rw [acted_replays h ha]
  exact h.replay _

theorem linked_settle {s s' : Session} (h : s.broker.Linked) (hs : s.settle = .ok s') :
    s'.broker.Linked := by
  rw [settle_replays h hs]
  exact h.replay _

theorem linked_step {s s' : Session} {x : Step} {a : Answer} (h : s.broker.Linked)
    (hs : s.step x = .ok (a, s')) : s'.broker.Linked := by
  rw [step_replays h hs]
  exact h.replay _

theorem linked_run {s s' : Session} {steps : List Step} {answers : List Answer}
    (h : s.broker.Linked) (hr : s.run steps = .ok (answers, s')) : s'.broker.Linked := by
  rw [run_replays h hr]
  exact h.replay _

/-- The sessions to which some steps lead from a new broker. -/
def Reachable (s : Session) : Prop :=
  ∃ supply settings b m steps answers, Broker.new settings = .ok b ∧
    (Session.new supply b m).run steps = .ok (answers, s)

theorem Reachable.linked {s : Session} (h : s.Reachable) : s.broker.Linked := by
  obtain ⟨supply, settings, b, m, steps, answers, hb, hr⟩ := h
  have hl : (Session.new supply b m).broker.Linked := Broker.Linked.new hb
  exact linked_run hl hr

/-- Each deed of a run with the broker that it met. -/
def journal (s : Session) (steps : List Step) : List (Broker × Deed) :=
  s.broker.journal (s.deeds steps)

theorem journal_cons {s mid : Session} {x : Step} {a : Answer} (h : s.broker.Linked)
    (hx : s.step x = .ok (a, mid)) (rest : List Step) :
    s.journal (x :: rest) = s.broker.journal (s.stepDeeds x) ++ mid.journal rest := by
  simp only [journal, deeds, hx, Broker.journal_append, ← step_replays h hx]

theorem journal_append {s mid : Session} {steps : List Step} {answers : List Answer}
    (h : s.broker.Linked) (hr : s.run steps = .ok (answers, mid)) (steps' : List Step) :
    s.journal (steps ++ steps') = s.journal steps ++ mid.journal steps' := by
  rw [journal, deeds_append hr, Broker.journal_append, ← run_replays h hr]
  rfl

end Session

end EventBroker
