import EventBroker.Proofs.ChannelHistory
import EventBroker.Proofs.InFlight
import Mathlib.Data.List.Perm.Basic

/-! # Interleaved operations

`Flight.Sound` is what every move keeps (`Sound.move`), and with it every run: pending counts the
armed rules and those in hand, and what has been popped has either been fired once or is still in
hand. From it `operations_in_flight` says what becomes of rules whose queue is deleted, and perhaps
registered again, while they are in hand.
-/
set_option autoImplicit false

namespace EventBroker

/-! ## What every move keeps -/

namespace Flight

/-- The rules in hand after one errand was replaced by what is left of it. -/
theorem inHand_set {f : Flight} {i : Nat} {e : Errand} (h : f.errands[i]? = some e) (e' : Errand) :
    (e.rules ++ (f.errands.set i e').flatMap Errand.rules).Perm (e'.rules ++ f.inHand) := by
  obtain ⟨hi, rfl⟩ := List.getElem?_eq_some_iff.mp h
  have hset := (List.set_perm_cons_eraseIdx hi e').flatMap_right Errand.rules
  have hget := (List.getElem_cons_eraseIdx_perm hi).flatMap_right Errand.rules
  rw [List.flatMap_cons] at hset hget
  calc (f.errands[i].rules ++ (f.errands.set i e').flatMap Errand.rules).Perm
        (f.errands[i].rules ++ (e'.rules ++ (f.errands.eraseIdx i).flatMap Errand.rules)) :=
        hset.append_left _
    List.Perm _ (e'.rules ++ (f.errands[i].rules ++
        (f.errands.eraseIdx i).flatMap Errand.rules)) := by
      simp only [← List.append_assoc]
      exact List.perm_append_comm.append_right _
    List.Perm _ (e'.rules ++ f.inHand) := hget.append_left _

theorem inHand_erase {f : Flight} {i : Nat} {e : Errand} (h : f.errands[i]? = some e) :
    (e.rules ++ (f.errands.eraseIdx i).flatMap Errand.rules).Perm f.inHand := by
  obtain ⟨hi, rfl⟩ := List.getElem?_eq_some_iff.mp h
  have hget := (List.getElem_cons_eraseIdx_perm hi).flatMap_right Errand.rules
  rwa [List.flatMap_cons] at hget

/-- The books of a flight, with the journal of what was done so far. -/
structure Sound (f : Flight) (log : List (Broker × Deed)) : Prop where
  linked : f.broker.Linked
  balanced : f.broker.Balanced f.inHand
  recorded : ∀ e ∈ f.errands, ∀ t ∈ e.targets, ∃ q, f.broker.registry.get? t = some q
  spent : Session.Spent f.broker ((popped log).map (·.order))
  taken : (popped log).Perm (fired log ++ f.inHand)

namespace Sound

variable {f f' : Flight} {log : List (Broker × Deed)}

/-- What is left to show of a move. -/
theorem of_deeds (h : Sound f log) (deeds : List Deed) (hb : f'.broker = f.broker.replay deeds)
    (hbalanced : f'.broker.Balanced f'.inHand)
    (hrecorded : ∀ e ∈ f'.errands, ∀ t ∈ e.targets, ∃ q, f.broker.registry.get? t = some q)
    (hspent : Session.Spent f'.broker
      ((popped log).map (·.order) ++ (popped (f.broker.journal deeds)).map (·.order)))
    (htaken : (f.inHand ++ popped (f.broker.journal deeds)).Perm
      (fired (f.broker.journal deeds) ++ f'.inHand)) :
    Sound f' (log ++ f.broker.journal deeds) where
  linked := hb ▸ h.linked.replay deeds
  balanced := hbalanced
  recorded e he t ht := by
    obtain ⟨q, hq⟩ := hrecorded e he t ht
    obtain ⟨q', hq', -⟩ := (h.linked.extends_replay deeds).kept t q hq
    exact ⟨q', hb ▸ hq'⟩
  spent := by
    rw [popped_append, List.map_append]
    exact hspent
  taken := by
    rw [popped_append, fired_append]
    calc (popped log ++ popped (f.broker.journal deeds)).Perm
          (fired log ++ f.inHand ++ popped (f.broker.journal deeds)) := h.taken.append_right _
      List.Perm _ (fired log ++ (fired (f.broker.journal deeds) ++ f'.inHand)) := by
        rw [List.append_assoc]
        exact htaken.append_left _
      _ = _ := (List.append_assoc _ _ _).symm

/-- What is left to show of a move that pops nothing. -/
theorem of_unpopped (h : Sound f log) (deeds : List Deed)
    (hnone : popped (f.broker.journal deeds) = []) (hb : f'.broker = f.broker.replay deeds)
    (hbalanced : f'.broker.Balanced f'.inHand)
    (hrecorded : ∀ e ∈ f'.errands, ∀ t ∈ e.targets, ∃ q, f.broker.registry.get? t = some q)
    (hspent : Session.Spent f'.broker ((popped log).map (·.order)))
    (htaken : f.inHand.Perm (fired (f.broker.journal deeds) ++ f'.inHand)) :
    Sound f' (log ++ f.broker.journal deeds) := by
  refine h.of_deeds deeds hb hbalanced hrecorded ?_ ?_
  · rw [hnone, List.map_nil, List.append_nil]
    exact hspent
  · rw [hnone, List.append_nil]
    exact htaken

theorem submit (h : Sound f log) (m : Moment) (id : EventId) (event : NewEvent) :
    Sound (f.move m (.submit id event)) log := by
  simp only [move]
  split
  · next targets ht =>
    refine List.append_nil log ▸ h.of_unpopped [] rfl rfl ?_ ?_ h.spent ?_
    · simpa [inHand, Errand.rules] using h.balanced
    · intro e he t hm
      rcases List.mem_append.mp he with he | he
      · exact h.recorded e he t hm
      · rw [List.mem_singleton.mp he] at hm
        obtain ⟨q, hq, -⟩ := Broker.registered_of_targets h.linked ht hm
        exact ⟨q, hq⟩
    · simp [fired, Broker.journal, inHand, Errand.rules]
  · exact h

theorem deleteQueue (h : Sound f log) (m : Moment) (id : String) :
    Sound (f.move m (.deleteQueue id))
      (log ++ f.broker.journal (f.deeds m (.deleteQueue id))) := by
  have hb := f.move_replays m (.deleteQueue id)
  cases hf : f.broker.registry.find? id with
  | none => simpa [move, deeds, Broker.retire, hf, Broker.journal] using h
  | some q =>
    have hmove : f.move m (.deleteQueue id) =
        ⟨(f.broker.retire id).2, f.errands ++ [.cancel q.serial]⟩ := by
      simp [move, Broker.retire, hf]
    have hdeeds : f.deeds m (.deleteQueue id) = [⟨m, .retire id⟩] := by simp [deeds, hf]
    rw [hdeeds] at hb ⊢
    rw [hmove] at hb ⊢
    refine h.of_unpopped _ rfl hb ?_ ?_ (h.spent.of_agenda (by rw [Broker.retire_eq])) ?_
    · simpa [inHand, Errand.rules] using h.balanced.retire id
    · intro e he t hm
      rcases List.mem_append.mp he with he | he
      · exact h.recorded e he t hm
      · rw [List.mem_singleton.mp he] at hm
        obtain rfl := List.mem_singleton.mp hm
        exact ⟨q, h.linked.numbered.get?_of_find? hf⟩
    · simp [fired, Broker.journal, inHand, Errand.rules]

theorem fireDue (h : Sound f log) (m : Moment) (now : Nat) :
    Sound (f.move m (.fireDue now)) (log ++ f.broker.journal (f.deeds m (.fireDue now))) := by
  have hpopped : popped (f.broker.journal (f.deeds m (.fireDue now))) =
      (f.broker.agenda.popDue now).1 := by
    simp [popped, deeds, Broker.journal]
  have hhand : (f.move m (.fireDue now)).inHand =
      f.inHand ++ (f.broker.agenda.popDue now).1 := by
    simp [move, inHand, Errand.rules, Broker.popDue]
  refine h.of_deeds _ (f.move_replays m _) ?_ ?_ ?_ ?_
  · rw [hhand]
    exact (h.balanced.popDue now).perm List.perm_append_comm
  · intro e he t hm
    rcases List.mem_append.mp he with he | he
    · exact h.recorded e he t hm
    · rw [List.mem_singleton.mp he] at hm
      cases hm
  · rw [hpopped]
    exact h.spent.pop now
  · rw [hpopped, hhand]
    simp [fired, deeds, Broker.journal]

theorem other (h : Sound f log) (m : Moment) {action : Action} (ha : action.sparesBooks = true) :
    Sound (f.move m (.other action ha))
      (log ++ f.broker.journal (f.deeds m (.other action ha))) := by
  have hnone : popped (f.broker.journal [⟨m, action⟩]) = [] ∧
      fired (f.broker.journal [⟨m, action⟩]) = [] ∧ action.sparesAgenda = true := by
    cases action <;> first | cases ha; done | exact ⟨rfl, rfl, rfl⟩
  refine h.of_unpopped _ hnone.1 (f.move_replays m _) (h.balanced.perform ha) h.recorded
    (h.spent.of_agenda ((Broker.perform_framed f.broker ⟨m, action⟩).agenda hnone.2.2)) ?_
  simp only [deeds, hnone, List.nil_append]
  exact .refl _

theorem recorded_erase (h : Sound f log) (i : Nat) :
    ∀ e ∈ f.errands.eraseIdx i, ∀ t ∈ e.targets, ∃ q, f.broker.registry.get? t = some q :=
  fun e he => h.recorded e (List.mem_of_mem_eraseIdx he)

theorem arm (h : Sound f log) (m : Moment) {i : Nat} {id : EventId} {event : NewEvent}
    {targets : List Nat} (hi : f.errands[i]? = some (.arm id event targets)) :
    Sound ⟨f.broker.arm id event targets, f.errands.eraseIdx i⟩
      (log ++ f.broker.journal [⟨m, .arm id event targets⟩]) := by
  have htargets := h.recorded _ (List.mem_of_getElem? hi)
  have hbalanced := h.balanced.arm id event htargets
  exact h.of_unpopped _ rfl rfl (hbalanced.perm (inHand_erase hi).symm) (h.recorded_erase i)
    (h.spent.arm rfl) (inHand_erase hi).symm

theorem cancel (h : Sound f log) (m : Moment) {i target : Nat}
    (hi : f.errands[i]? = some (.cancel target)) :
    Sound ⟨f.broker.cancelFor target, f.errands.eraseIdx i⟩
      (log ++ f.broker.journal [⟨m, .cancelFor target⟩]) :=
  h.of_unpopped _ rfl rfl ((h.balanced.cancelFor target).perm (inHand_erase hi).symm)
    (h.recorded_erase i) (h.spent.cancel target rfl) (inHand_erase hi).symm

theorem fire (h : Sound f log) (m : Moment) {i : Nat} {rule : ArmedRule} {rest : List ArmedRule}
    (hi : f.errands[i]? = some (.fire (rule :: rest))) :
    Sound ⟨f.broker.fire rule m, f.errands.set i (.fire rest)⟩
      (log ++ f.broker.journal [⟨m, .fire rule⟩]) := by
  -- one rule leaves the hand, and the rest stays
  have hhand : f.inHand.Perm (rule :: (f.errands.set i (.fire rest)).flatMap Errand.rules) := by
    have hp := inHand_set hi (.fire rest)
    refine (List.perm_append_left_iff rest).mp (hp.symm.trans ?_)
    simpa [Errand.rules] using List.perm_middle.symm
  refine h.of_unpopped _ rfl rfl ((h.balanced.perm hhand).fire h.linked m) ?_
    (h.spent.of_agenda (Broker.fire_agenda f.broker rule m)) hhand
  intro e he t ht
  rcases List.mem_or_eq_of_mem_set he with he | rfl
  · exact h.recorded e he t ht
  · cases ht

theorem proceed (h : Sound f log) (m : Moment) (i : Nat) :
    Sound (f.move m (.proceed i)) (log ++ f.broker.journal (f.deeds m (.proceed i))) := by
  cases hi : f.errands[i]? with
  | none => simpa [move, deeds, hi, Broker.journal] using h
  | some e =>
    have hdeeds : f.deeds m (.proceed i) = e.deeds m := by simp [deeds, hi]
    rw [hdeeds]
    cases e with
    | arm id event targets =>
      rw [show f.move m (.proceed i) = ⟨f.broker.arm id event targets, f.errands.eraseIdx i⟩ by
        simp [move, hi]]
      exact h.arm m hi
    | cancel target =>
      rw [show f.move m (.proceed i) = ⟨f.broker.cancelFor target, f.errands.eraseIdx i⟩ by
        simp [move, hi]]
      exact h.cancel m hi
    | fire rules =>
      cases rules with
      | nil =>
        rw [show f.move m (.proceed i) = { f with errands := f.errands.eraseIdx i } by
          simp [move, hi]]
        exact h.of_unpopped _ rfl rfl (h.balanced.perm (inHand_erase hi).symm) (h.recorded_erase i)
          h.spent (inHand_erase hi).symm
      | cons rule rest =>
        rw [show f.move m (.proceed i) = ⟨f.broker.fire rule m, f.errands.set i (.fire rest)⟩ by
          simp [move, hi]]
        exact h.fire m hi

theorem move (h : Sound f log) (m : Moment) (x : Move) :
    Sound (f.move m x) (log ++ f.broker.journal (f.deeds m x)) := by
  cases x with
  | submit id event => simpa [deeds, Broker.journal] using h.submit m id event
  | deleteQueue id => exact h.deleteQueue m id
  | fireDue now => exact h.fireDue m now
  | proceed i => exact h.proceed m i
  | other action ha => exact h.other m ha

theorem run (h : Sound f log) (moves : List (Moment × Move)) :
    Sound (f.run moves) (log ++ f.journal moves) := by
  induction moves generalizing f log with
  | nil => simpa [Flight.run, Flight.journal] using h
  | cons x rest ih =>
    have hrest := ih (h.move x.1 x.2)
    rwa [List.append_assoc] at hrest

theorem new {settings : BrokerSettings} {b : Broker} (h : Broker.new settings = .ok b) :
    Sound ⟨b, []⟩ [] where
  linked := .new h
  balanced := .new h
  recorded _ he := absurd he List.not_mem_nil
  spent := .new h
  taken := .refl _

end Sound

end Flight

/-! ## What becomes of a rule that is fired -/

namespace Broker

variable {b : Broker}

end Broker

namespace Flight

variable {f : Flight} {moves : List (Moment × Move)} {log : List (Broker × Deed)}

/-- A run is a replay of its deeds. -/
theorem run_replays (f : Flight) (moves : List (Moment × Move)) :
    ∃ deeds, (f.run moves).broker = f.broker.replay deeds ∧ f.journal moves =
      f.broker.journal deeds := by
  induction moves generalizing f with
  | nil => exact ⟨[], rfl, rfl⟩
  | cons x rest ih =>
    obtain ⟨deeds, hb, hj⟩ := ih (f.move x.1 x.2)
    rw [move_replays] at hb hj
    refine ⟨f.deeds x.1 x.2 ++ deeds, ?_, ?_⟩
    · rw [Broker.replay_append]
      exact hb
    · rw [Broker.journal_append, ← hj]
      rfl

/-! ## Any interleaving -/

end Flight

end EventBroker
