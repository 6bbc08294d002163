import EventBroker.Text.Hex

/-! # Unsigned numbers in text

A number is one or more digits of a radix, with an optional `+` in front. It is read exactly and
refused above a bound.
-/
set_option autoImplicit false

namespace EventBroker.Text

def digitValue? (radix : Nat) (c : Char) : Option Nat :=
  match Hex.value? c with
  | some d => if d.val < radix then some d.val else none
  | none => none

def readDigits (radix : Nat) (cs : List Char) : Option Nat :=
  cs.foldl (fun acc c => do
    let n ← acc
    let d ← digitValue? radix c
    return n * radix + d) (some 0)

/-- Reads an unsigned number of at most `bound`, with an optional `+` in front. -/
def readUnsigned (radix bound : Nat) (cs : List Char) : Option Nat :=
  let digits := match cs with
    | '+' :: rest => rest
    | _ => cs
  if digits.isEmpty then none
  else (readDigits radix digits).filter (· ≤ bound)

def decimal (n : Nat) : String := String.ofList (Nat.toDigits 10 n)

end EventBroker.Text
