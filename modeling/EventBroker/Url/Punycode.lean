/-! # Punycode

A label of a domain with characters beyond ASCII is written in ASCII: first its ASCII characters,
then, for the others in ascending order, how far each lies behind the one before. Distances are
numbers of variable length in radix 36, whose digits end a number at thresholds that adapt to what
came before.
-/
set_option autoImplicit false

namespace EventBroker.Punycode

def digits : List Char := "abcdefghijklmnopqrstuvwxyz0123456789".toList

def digit (d : Nat) : Char := digits.getD d 'a'

def value? (c : Char) : Option Nat := digits.findIdx? (· == c.toLower)

/-- A digit below the threshold is the last one of its number. The thresholds lie between 1 and 26.
-/
def threshold (position bias : Nat) : Nat :=
  if position ≤ bias then 1 else if bias + 26 ≤ position then 26 else position - bias

/-- Divides a distance until it is at most 455; counts 36 for each division. -/
def reduce (distance count : Nat) : Nat × Nat :=
  if h : 455 < distance then reduce (distance / 35) (count + 36) else (distance, count)
  termination_by distance

/-- The bias after a distance, where `known` characters are known. -/
def adapt (distance known : Nat) (first : Bool) : Nat :=
  let scaled := if first then distance / 700 else distance / 2
  let (rest, count) := reduce (scaled + scaled / known) 0
  count + 36 * rest / (rest + 38)

/-! ## Writing -/

def writeNumber (bias position n : Nat) : List Char :=
  let t := threshold position bias
  if n < t then [digit n]
  else digit (t + (n - t) % (36 - t)) :: writeNumber bias (position + 36) ((n - t) / (36 - t))
  termination_by n
  decreasing_by
    have : 1 ≤ threshold position bias := by unfold threshold; split <;> (try split) <;> omega
    have := Nat.div_le_self (n - threshold position bias) (36 - threshold position bias)
    omega

structure Writer where
  text : List Char
  /-- How many places were passed since the last character. -/
  distance : Nat
  bias : Nat
  known : Nat

/-- Passes one character of the label in the round for the code point `n`; `basic` characters of the
label are ASCII. -/
def Writer.pass (n basic : Nat) (w : Writer) (c : Char) : Writer :=
  if c.toNat < n then { w with distance := w.distance + 1 }
  else if c.toNat = n then
    ⟨w.text ++ writeNumber w.bias 36 w.distance, 0,
      adapt w.distance (w.known + 1) (w.known == basic), w.known + 1⟩
  else w

/-- Writes the characters with the given code points, which ascend; `next` is the first that may
come. -/
def Writer.round (label : List Char) (basic : Nat) : List Nat → Nat → Writer → Writer
  | [], _, w => w
  | n :: rest, next, w =>
    let w := { w with distance := w.distance + (n - next) * (w.known + 1) }
    let w := label.foldl (Writer.pass n basic) w
    Writer.round label basic rest (n + 1) { w with distance := w.distance + 1 }

def encode (label : List Char) : List Char :=
  let basic := label.filter (·.toNat < 0x80)
  let others := ((label.map Char.toNat).filter (0x80 ≤ ·)).eraseDups.mergeSort
  let w := Writer.round label basic.length others 0x80 ⟨[], 0, 72, basic.length⟩
  basic ++ (if basic.isEmpty then [] else ['-']) ++ w.text

/-! ## Reading -/

def readNumber (bias position weight acc : Nat) : List Char → Option (Nat × List Char)
  | [] => none
  | c :: rest => do
    let d ← value? c
    let t := threshold position bias
    if d < t then return (acc + d * weight, rest)
    else readNumber bias (position + 36) (weight * (36 - t)) (acc + d * weight) rest

/-- Reads numbers and puts in their characters. Each number takes at least one character. -/
def readRest : Nat → Nat → Nat → Nat → Bool → List Char → List Char → Option (List Char)
  | _, _, _, _, _, label, [] => some label
  | 0, _, _, _, _, _, _ => none
  | fuel + 1, bias, next, place, first, label, cs => do
    let (distance, rest) ← readNumber bias 36 1 0 cs
    let known := label.length + 1
    let n := next + (place + distance) / known
    let index := (place + distance) % known
    guard (n < 0xD800 ∨ (0xDFFF < n ∧ n ≤ 0x10FFFF))
    readRest fuel (adapt distance known first) n (index + 1) false
      (label.insertIdx index (Char.ofNat n)) rest

def decode (cs : List Char) : Option (List Char) :=
  let basic := ((cs.reverse.dropWhile (· != '-')).drop 1).reverse
  let rest := if basic.isEmpty then cs else cs.drop (basic.length + 1)
  readRest (rest.length + 1) 72 0x80 0 true basic rest

end EventBroker.Punycode
