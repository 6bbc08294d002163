import EventBroker.Proofs.Books

/-! # Operations in flight

Submitting an event, deleting a queue and firing what is due take several indivisible steps each.
Between two of them any other operation may have its turn, also another one that is half done. A
`Flight` is a broker with its half-done operations; each of them keeps in hand what it has looked up
so far: the targets of an event, the incarnation to cancel for, the rules that are due. A `Move`
begins an operation, lets one of them proceed by one step, or does something else as a whole.

Done without interruption, the steps of an operation come to what the broker does in one go
(`submit_undivided`, `deleteQueue_undivided`, `fireDue_undivided`).
-/
set_option autoImplicit false

namespace EventBroker

/-- What is left to do of a half-done operation. -/
inductive Errand where
  | arm (id : EventId) (event : NewEvent) (targets : List Nat)
  | cancel (target : Nat)
  | fire (rules : List ArmedRule)

namespace Errand

/-- The rules in hand. -/
def rules : Errand → List ArmedRule
  | .fire rules => rules
  | _ => []

/-- The incarnations that have been looked up. -/
def targets : Errand → List Nat
  | .arm _ _ targets => targets
  | .cancel target => [target]
  | .fire _ => []

/-- The next step. -/
def deeds (m : Moment) : Errand → List Deed
  | .arm id event targets => [⟨m, .arm id event targets⟩]
  | .cancel target => [⟨m, .cancelFor target⟩]
  | .fire (rule :: _) => [⟨m, .fire rule⟩]
  | .fire [] => []

end Errand

structure Flight where
  broker : Broker
  errands : List Errand

inductive Move where
  | submit (id : EventId) (event : NewEvent)
  | deleteQueue (id : String)
  | fireDue (now : Nat)
  | proceed (errand : Nat)
  | other (action : Action) (spares : action.sparesBooks = true)

namespace Flight

def move (f : Flight) (m : Moment) : Move → Flight
  | .submit id event =>
    match f.broker.targets event with
    | .ok targets => { f with errands := f.errands ++ [.arm id event targets] }
    | .error _ => f
  | .deleteQueue id =>
    match f.broker.retire id with
    | (.ok target, broker) => ⟨broker, f.errands ++ [.cancel target]⟩
    | (.error _, broker) => { f with broker }
  | .fireDue now =>
    let (due, broker) := f.broker.popDue now
    ⟨broker, f.errands ++ [.fire due]⟩
  | .proceed i =>
    match f.errands[i]? with
    | some (.arm id event targets) => ⟨f.broker.arm id event targets, f.errands.eraseIdx i⟩
    | some (.cancel target) => ⟨f.broker.cancelFor target, f.errands.eraseIdx i⟩
    | some (.fire (rule :: rest)) => ⟨f.broker.fire rule m, f.errands.set i (.fire rest)⟩
    | some (.fire []) => { f with errands := f.errands.eraseIdx i }
    | none => f
  | .other action _ => { f with broker := f.broker.perform ⟨m, action⟩ }

def run (f : Flight) (moves : List (Moment × Move)) : Flight :=
  moves.foldl (fun f x => f.move x.1 x.2) f

/-- All rules that are in hand. -/
def inHand (f : Flight) : List ArmedRule := f.errands.flatMap Errand.rules

/-! ## Operations without interruption

What is refused leaves no errand, and then there is nothing to proceed with.
-/

/-- What a move does to the broker. -/
def deeds (f : Flight) (m : Moment) : Move → List Deed
  | .submit _ _ => []
  | .deleteQueue id => (f.broker.registry.find? id).toList.map fun _ => ⟨m, .retire id⟩
  | .fireDue now => [⟨m, .popDue now⟩]
  | .proceed i => (f.errands[i]?).toList.flatMap (Errand.deeds m)
  | .other action _ => [⟨m, action⟩]

theorem move_replays (f : Flight) (m : Moment) (x : Move) :
    (f.move m x).broker = f.broker.replay (f.deeds m x) := by
  cases x with
  | submit id event =>
    simp only [move, deeds]
    split <;> rfl
  | deleteQueue id =>
    simp only [move, deeds, Broker.retire]
    cases h : f.broker.registry.find? id with
    | none => rfl
    | some q => simp [Broker.perform, Broker.retire, h]
  | fireDue now => rfl
  | proceed i =>
    simp only [move, deeds]
    split <;> simp_all [Errand.deeds, Broker.perform]
  | other action spares => rfl

/-- Each deed of a run with the broker that it met. -/
def journal : Flight → List (Moment × Move) → List (Broker × Deed)
  | _, [] => []
  | f, (m, x) :: rest => f.broker.journal (f.deeds m x) ++ (f.move m x).journal rest

end Flight

/-- The rules that were popped in the course of a journal. -/
def popped (journal : List (Broker × Deed)) : List ArmedRule :=
  journal.flatMap fun (b, d) =>
    match d.action with
    | .popDue now => (b.agenda.popDue now).1
    | _ => []

/-- The rules that were fired in the course of a journal, into whatever incarnation. -/
def fired (journal : List (Broker × Deed)) : List ArmedRule :=
  journal.filterMap fun (_, d) =>
    match d.action with
    | .fire rule => some rule
    | _ => none

theorem popped_append (journal journal' : List (Broker × Deed)) :
    popped (journal ++ journal') = popped journal ++ popped journal' := List.flatMap_append

theorem fired_append (journal journal' : List (Broker × Deed)) :
    fired (journal ++ journal') = fired journal ++ fired journal' := List.filterMap_append

end EventBroker
