import EventBroker.Decimal.Shortest
import EventBroker.Json.Document

/-! # Numbers in JSON text

A numeral is a sign, digits without a needless leading zero, an optional fraction and an optional
exponent. Its value is an integer if it has neither and fits 64 bits (a negative zero does not),
else a binary number, computed as the leading digits that fit a word times or over a power of ten.
-/
set_option autoImplicit false

namespace EventBroker.Json

/-- A numeral as far as it could be followed. -/
structure Numeral where
  negative : Bool
  whole : List Nat
  fraction : Option (List Nat)
  /-- The sign of the exponent (true if negative) and its digits. -/
  exponent : Option (Bool × List Nat)

namespace Numeral

/-- Digits gathered into a word, and the rest from the first that does not fit. -/
def gather : Nat → List Nat → Nat × List Nat
  | acc, [] => (acc, [])
  | acc, d :: rest =>
    if acc * 10 + d ≤ 0xFFFFFFFFFFFFFFFF then gather (acc * 10 + d) rest else (acc, d :: rest)

/-- The significant word and the power of ten of the digits before the exponent. Digits of the whole
part that do not fit count as zeros; digits of the fraction that do not fit are dropped. -/
def significand (n : Numeral) : Nat × Int :=
  let (w, surplus) := gather 0 n.whole
  let scale : Int := surplus.length
  let digits := n.fraction.getD []
  let (w', dropped) := gather w digits
  (w', scale - (digits.length - dropped.length : Nat))

def powerOfTen (k : Nat) : Decimal.Binary64 :=
  (Decimal.Binary64.ofRatio (Nat.pow 10 k) 1).getD (.zero false)

/-- Divides by a large power of ten until the exponent is small enough; `none` is a number that is
too large. -/
def scale : Nat → Decimal.Binary64 → Int → Option Decimal.Binary64
  | 0, x, _ => some x
  | fuel + 1, x, e =>
    if e.natAbs ≤ 308 then
      if 0 ≤ e then x.mul (powerOfTen e.natAbs) else x.div (powerOfTen e.natAbs)
    else if x.mantissa = 0 then some x
    else if 0 ≤ e then none
    else (x.div (powerOfTen 308)).bind (scale fuel · (e + 308))

/-- The value of exponent digits, or none if it is no 32-bit signed number. -/
def exponentValue : Nat → List Nat → Option Nat
  | acc, [] => some acc
  | acc, d :: rest => if acc * 10 + d ≤ 0x7FFFFFFF then exponentValue (acc * 10 + d) rest else none

def clampExponent (e : Int) : Int := max (-0x80000000) (min e 0x7FFFFFFF)

/-- The rounded value of a numeral with a fraction or an exponent, or too long for an integer. -/
def rounded (n : Numeral) : Read Number :=
  let (w, e) := n.significand
  let withSign (x : Decimal.Binary64) : Read Number :=
    .ok (.float { x with negative := n.negative }.toText)
  let start := (Decimal.Binary64.ofRatio w 1).getD (.zero false)
  let finish (e : Int) : Read Number :=
    match scale 20 start e with
    | some x => withSign x
    | none => .error .numberOutOfRange
  match n.exponent with
  | none => finish e
  | some (down, digits) =>
    match exponentValue 0 digits with
    | some x => finish (clampExponent (if down then e - x else e + x))
    | none => if w ≠ 0 ∧ !down then .error .numberOutOfRange else withSign (.zero false)

def value (n : Numeral) : Read Number :=
  let (w, surplus) := gather 0 n.whole
  if surplus.isEmpty && n.fraction.isNone && n.exponent.isNone then
    if !n.negative then .ok (.integer w)
    else if 0 < w ∧ w ≤ 0x8000000000000000 then .ok (.integer (-w))
    else n.rounded
  else n.rounded

end Numeral

end EventBroker.Json
