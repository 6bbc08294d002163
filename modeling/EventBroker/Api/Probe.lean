import EventBroker.Http.Message

/-! # Probes

Beside its API the broker answers a few questions about itself: whether it lives, whether it is
ready, and what its metrics are.
-/
set_option autoImplicit false

namespace EventBroker.Api
open Http

inductive Probe where
  | metrics
  | live
  | ready
  deriving DecidableEq, Repr

namespace Probe

def ofPath? : String → Option Probe
  | "/metrics" => some metrics
  | "/live" => some live
  | "/ready" => some ready
  | _ => none

/-- The answer to a question; `rendered` is the text of the metrics. -/
def answer (rendered : String) : Probe → Response
  | metrics => .text 200 rendered
  | live | ready => .text 200 "ok"

def serve (rendered method path : String) : Response :=
  match ofPath? path with
  | none => .notFound
  | some probe =>
    if method = "GET" then probe.answer rendered
    else if method = "HEAD" then (probe.answer rendered).withoutBody
    else { Response.empty 405 with allow := some "GET,HEAD" }

end Probe

end EventBroker.Api
