/-! # Binary floating-point numbers of 64 bits

A finite number is a sign, a mantissa below `2^53` and a binary exponent of at least `-1074`. Every
operation here takes the exact result as a quotient of natural numbers and rounds once, to the
nearest mantissa, ties to the even one; a result beyond the largest exponent has no value.
-/
set_option autoImplicit false

namespace EventBroker.Decimal

/-- The number `mantissa * 2 ^ exponent`, negated if `negative`. -/
structure Binary64 where
  negative : Bool
  mantissa : Nat
  exponent : Int
  deriving DecidableEq, Repr

namespace Binary64

/-- The least mantissa with 53 binary digits: `2 ^ 52`. -/
def leadingBit : Nat := 0x10000000000000

def zero (negative : Bool) : Binary64 := ⟨negative, 0, -1074⟩

/-- The quotient rounded to the nearest natural number, a tie to the even one. -/
def roundQuotient (num den : Nat) : Nat :=
  let q := num / den
  let r := num % den
  if 2 * r < den then q
  else if den < 2 * r then q + 1
  else if q % 2 = 0 then q else q + 1

/-- `num / den` scaled down by `2 ^ e`, as a pair of natural numbers. -/
def scaleDown (num den : Nat) (e : Int) : Nat × Nat :=
  if 0 ≤ e then (num, den * Nat.pow 2 e.toNat) else (num * Nat.pow 2 (-e).toNat, den)

/-- The exponent at which the quotient has 53 binary digits before the point, or the least one. -/
def exponentOf (num den : Nat) : Int :=
  let guess : Int := (Nat.log2 num : Int) - (Nat.log2 den : Int) - 52
  let (n, d) := scaleDown num den guess
  let e := if n < d * leadingBit then guess - 1 else guess
  max e (-1074)

/-- The number nearest to `num / den`; none if it is too large. -/
def ofRatio (num den : Nat) : Option Binary64 :=
  if num = 0 then some (zero false)
  else
    let e := exponentOf num den
    let (n, d) := scaleDown num den e
    let m := roundQuotient n d
    let (m, e) := if m = 2 * leadingBit then (leadingBit, e + 1) else (m, e)
    if 971 < e then none else some ⟨false, m, e⟩

def ratio (x : Binary64) : Nat × Nat :=
  if 0 ≤ x.exponent then (x.mantissa * Nat.pow 2 x.exponent.toNat, 1)
  else (x.mantissa, Nat.pow 2 (-x.exponent).toNat)

def mul (x y : Binary64) : Option Binary64 :=
  ofRatio (x.ratio.1 * y.ratio.1) (x.ratio.2 * y.ratio.2)

/-- The rounded quotient of magnitudes; the divisor is not zero. -/
def div (x y : Binary64) : Option Binary64 :=
  ofRatio (x.ratio.1 * y.ratio.2) (x.ratio.2 * y.ratio.1)

def roundNat (n : Nat) : Nat :=
  match ofRatio n 1 with
  | some x => x.ratio.1 / x.ratio.2
  | none => n

end Binary64

end EventBroker.Decimal
