import EventBroker.Decimal.Binary64
import EventBroker.Text.Unsigned

/-! # The shortest decimal text of a binary number

Among the decimal numbers that round back to a binary number, the text has one with the fewest
digits, and of those the nearest. The largest power of ten on whose grid such a number lies fixes
the digit count; only the two neighbours of the value on a grid have to be tried.
-/
set_option autoImplicit false

namespace EventBroker.Decimal

/-- The interval of the reals that round to a number, and the number itself, over one denominator.
The ends belong to it when the mantissa is even. -/
structure Neighbourhood where
  low : Nat
  value : Nat
  high : Nat
  den : Nat
  closed : Bool

/-- Below a power of two the next smaller number is half as far away as the next larger one. -/
def neighbourhood (x : Binary64) : Neighbourhood :=
  let m := x.mantissa
  let narrow := m = Binary64.leadingBit ∧ -1074 < x.exponent
  let low := if narrow then 4 * m - 1 else 4 * m - 2
  let (s, d) := if 0 ≤ x.exponent then (Nat.pow 2 x.exponent.toNat, 1)
    else (1, Nat.pow 2 (-x.exponent).toNat)
  ⟨low * s, 4 * m * s, (4 * m + 2) * s, 4 * d, m % 2 = 0⟩

def Neighbourhood.contains (n : Neighbourhood) (c : Nat) (k : Int) : Bool :=
  let (c, d) := if 0 ≤ k then (c * Nat.pow 10 k.toNat, 1) else (c, Nat.pow 10 (-k).toNat)
  let below := n.low * d < c * n.den || n.closed && n.low * d == c * n.den
  let above := c * n.den < n.high * d || n.closed && n.high * d == c * n.den
  below && above

/-- The value's lower neighbour on the grid of `10 ^ k`, and whether the upper neighbour is nearer
(an exact tie goes to the even one). -/
def Neighbourhood.split (n : Neighbourhood) (k : Int) : Nat × Bool :=
  let (v, d) := if 0 ≤ k then (n.value, n.den * Nat.pow 10 k.toNat)
    else (n.value * Nat.pow 10 (-k).toNat, n.den)
  let q := v / d
  let r := v % d
  (q, d < 2 * r || (2 * r == d && q % 2 == 1))

def Neighbourhood.onGrid? (n : Neighbourhood) (k : Int) : Option Nat :=
  let (q, up) := n.split k
  let lower := q != 0 && n.contains q k
  let upper := n.contains (q + 1) k
  if lower && upper then some (if up then q + 1 else q)
  else if lower then some q
  else if upper then some (q + 1)
  else none

def Neighbourhood.search (n : Neighbourhood) : Nat → Int → Option (Nat × Int)
  | 0, _ => none
  | fuel + 1, k =>
    match n.onGrid? k with
    | some c => some (c, k)
    | none => n.search fuel (k - 1)

/-- The shortest decimal `c * 10 ^ k` of a number other than zero. Its first grid is coarser than
the value, and seventeen digits always suffice. -/
def shortest (x : Binary64) : Nat × Int :=
  let n := neighbourhood x
  let magnitude : Int := (Nat.log2 x.mantissa : Int) + x.exponent
  let start := magnitude * 30103 / 100000 + 2
  (n.search 24 start).getD (0, 0)

structure Layout where
  /-- Positional notation ends above this many digits before the point. -/
  maxWhole : Int
  /-- Positional notation ends below `0.` with this many zeros. -/
  maxZeros : Int

/-- Numbers in messages are positional from `0.00001` up to sixteen digits. -/
def messageLayout : Layout := ⟨16, 4⟩

def Layout.render (l : Layout) (c : Nat) (k : Int) : String :=
  let digits := Nat.toDigits 10 c
  let count : Int := digits.length
  let point := count + k
  if 0 ≤ k ∧ point ≤ l.maxWhole then
    String.ofList (digits ++ List.replicate k.toNat '0') ++ ".0"
  else if 0 < point ∧ point ≤ l.maxWhole then
    String.ofList (digits.take point.toNat ++ '.' :: digits.drop point.toNat)
  else if -l.maxZeros - 1 < point ∧ point ≤ 0 then
    String.ofList ('0' :: '.' :: List.replicate (-point).toNat '0' ++ digits)
  else
    let e := point - 1
    let body := match digits with
      | [d] => [d]
      | d :: rest => d :: '.' :: rest
      | [] => []
    String.ofList (body ++ 'e' :: (if e < 0 then '-' else '+') :: Nat.toDigits 10 e.natAbs)

def Binary64.toText (x : Binary64) : String :=
  let sign := if x.negative then "-" else ""
  if x.mantissa = 0 then sign ++ "0.0"
  else
    let (c, k) := shortest x
    sign ++ messageLayout.render c k

end EventBroker.Decimal
