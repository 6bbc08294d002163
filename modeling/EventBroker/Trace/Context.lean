import EventBroker.Text.Blank
import EventBroker.Text.Unsigned
import EventBroker.Trace.State

/-! # Trace contexts

A request may say which trace it belongs to: `traceparent` names the trace and the span that caused
the request, `tracestate` holds what vendors add. `Context.ofHeaders` reads both. A header that
makes no sense is as good as none.
-/
set_option autoImplicit false

namespace EventBroker.Trace

structure Header where
  name : String
  value : List UInt8

structure Context where
  traceId : Nat
  spanId : Nat
  sampled : Bool
  /-- Whether the context came from elsewhere. -/
  remote : Bool
  state : State
  deriving DecidableEq, Repr

namespace Context

def none : Context := ⟨0, 0, false, false, []⟩

def isValid (c : Context) : Bool := c.traceId != 0 && c.spanId != 0

/-- The text of the first header with a name, if it is printable ASCII. -/
def headerText? (headers : List Header) (name : String) : Option String := do
  let header ← headers.find? fun h => h.name.toLower == name
  if header.value.all fun b => (32 ≤ b.toNat && b.toNat ≤ 126) || b == 9 then
    some (String.ofList (header.value.map fun b => Char.ofNat b.toNat))
  else failure

def trim (cs : List Char) : List Char :=
  ((cs.dropWhile Text.isBlank).reverse.dropWhile Text.isBlank).reverse

def maxVersion : Nat := 254

def maxFlags : Nat := 2

/-- An identifier of some bits in hexadecimal, without upper-case letters. -/
def readId (bits : Nat) (cs : List Char) : Option Nat :=
  if cs.any Char.isUpper then failure else Text.readUnsigned 16 (Nat.pow 2 bits - 1) cs

/-- The trace, the span and the flags that a `traceparent` names. Version zero has nothing after the
flags, later versions may. -/
def readParent (text : String) : Option (Nat × Nat × Nat) :=
  match State.splitTerminated '-' (trim text.toList) with
  | version :: trace :: span :: flags :: rest => do
    let version ← Text.readUnsigned 16 255 version
    guard (version ≤ maxVersion && (version != 0 || rest.isEmpty))
    let trace ← readId 128 trace
    let span ← readId 64 span
    let flags ← Text.readUnsigned 16 255 flags
    guard (version != 0 || flags ≤ maxFlags)
    return (trace, span, flags)
  | _ => failure

/-- The context that the headers of a request give. Of the flags only the lowest bit counts. -/
def ofHeaders (headers : List Header) : Context :=
  match (headerText? headers "traceparent").bind readParent with
  | some (traceId, spanId, flags) =>
    let state := ((headerText? headers "tracestate").bind State.parse?).getD []
    let c : Context := ⟨traceId, spanId, flags % 2 == 1, true, state⟩
    if c.isValid then c else none
  | Option.none => none

end Context

end EventBroker.Trace
