import EventBroker.Saturating
import EventBroker.Yaml.Value

/-! # The configuration file

A YAML file may set some of the broker's settings and leave the others alone. `Overrides.ofYaml?`
reads it: a mapping by the settings' names, or a sequence of all settings in order.
-/
set_option autoImplicit false

namespace EventBroker

structure Overrides where
  bind : Option String
  metricsBind : Option String
  /-- In milliseconds. -/
  maxTick : Option Nat
  subscriberCapacity : Option Nat
  channelCapacity : Option Nat
  /-- In milliseconds; zero is no timeout. -/
  idleTimeout : Option Nat
  /-- In milliseconds. -/
  reapInterval : Option Nat
  deriving DecidableEq, Repr

namespace Overrides

open Yaml

def nothing : Overrides := ⟨none, none, none, none, none, none, none⟩

/-- The node under a name. No name may come twice; an absent name has no node. -/
def member? (members : List (String × Node)) (name : String) : Option (Option Node) :=
  match members.filter (·.1 == name) with
  | [] => some none
  | [(_, n)] => some (some n)
  | _ => none

def ofNodes? (d : Document) : List (Option Node) → Option Overrides
  | [bind, metricsBind, maxTick, subscriberCapacity, channelCapacity, idleTimeout,
      reapInterval] => do
    let text (n : Option Node) : Option (Option String) :=
      n.elim (some none) (d.optional? fun s => some s.text)
    let number (n : Option Node) : Option (Option Nat) :=
      n.elim (some none) (d.optional? (Scalar.number? word64Max))
    return ⟨← text bind, ← text metricsBind, ← number maxTick, ← number subscriberCapacity,
      ← number channelCapacity, ← number idleTimeout, ← number reapInterval⟩
  | _ => none

def names : List String :=
  ["bind_addr", "metrics_bind", "scheduler_max_tick_ms", "subscriber_queue_capacity",
    "channel_buffer_capacity", "channel_idle_timeout_ms", "channel_reap_interval_ms"]

/-- The settings that a document writes. Names that mean nothing are passed over. -/
def ofDocument? (d : Document) : Option Overrides :=
  match d.root with
  | none => some nothing
  | some (.scalar s) => if s.style = .plain ∧ s.text = "" then some nothing else none
  | some (.sequence items) => ofNodes? d (items.map some)
  | some (.mapping members) => do
    let members ← members.mapM fun (key, value) => do return ((← d.scalar? key).text, value)
    ofNodes? d (← names.mapM (member? members))
  | some (.alias _) => none

def ofYaml? (text : String) : Option Overrides := (Document.ofText? text).bind ofDocument?

end Overrides

end EventBroker
