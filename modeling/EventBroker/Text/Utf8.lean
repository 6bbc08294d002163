/-! # UTF-8

Bytes of a text, and text from bytes: `decode?` accepts valid sequences only, `decodeLossy` writes
one replacement character for each maximal invalid part. A part is maximal when it is the longest
beginning of a valid sequence, or else a single byte.
-/
set_option autoImplicit false

namespace EventBroker.Utf8

def encodeChar (c : Char) : List UInt8 :=
  let n := c.toNat
  let continuation (k : Nat) : UInt8 := UInt8.ofNat (0x80 + n / Nat.pow 64 k % 64)
  if n < 0x80 then [UInt8.ofNat n]
  else if n < 0x800 then [UInt8.ofNat (0xC0 + n / 64), continuation 0]
  else if n < 0x10000 then [UInt8.ofNat (0xE0 + n / 4096), continuation 1, continuation 0]
  else [UInt8.ofNat (0xF0 + n / 262144), continuation 2, continuation 1, continuation 0]

def encode (cs : List Char) : List UInt8 := cs.flatMap encodeChar

def ofString (s : String) : List UInt8 := encode s.toList

/-- What a leading byte announces: how many bytes follow, and between which bounds the first of them
lies. None for a byte that begins no sequence. -/
def lead? (b : UInt8) : Option (Nat × Nat × Nat) :=
  let n := b.toNat
  if n < 0x80 then some (0, 0x80, 0xBF)
  else if 0xC2 ≤ n ∧ n ≤ 0xDF then some (1, 0x80, 0xBF)
  else if n = 0xE0 then some (2, 0xA0, 0xBF)
  else if n = 0xED then some (2, 0x80, 0x9F)
  else if 0xE1 ≤ n ∧ n ≤ 0xEF then some (2, 0x80, 0xBF)
  else if n = 0xF0 then some (3, 0x90, 0xBF)
  else if 0xF1 ≤ n ∧ n ≤ 0xF3 then some (3, 0x80, 0xBF)
  else if n = 0xF4 then some (3, 0x80, 0x8F)
  else none

def leadBits (k : Nat) (b : UInt8) : Nat :=
  match k with
  | 0 => b.toNat
  | 1 => b.toNat - 0xC0
  | 2 => b.toNat - 0xE0
  | _ => b.toNat - 0xF0

/-- Reads `k` continuation bytes, the first between the given bounds. Gives the code point if all
are there, and how many were read. -/
def continuations : Nat → Nat → Nat → Nat → Nat → List UInt8 → Option Nat × Nat
  | 0, _, _, acc, count, _ => (some acc, count)
  | k + 1, low, high, acc, count, b :: rest =>
    if low ≤ b.toNat ∧ b.toNat ≤ high then
      continuations k 0x80 0xBF (acc * 64 + (b.toNat - 0x80)) (count + 1) rest
    else (none, count)
  | _ + 1, _, _, _, count, [] => (none, count)

/-- The sequence at the front of `b :: rest`: its character if it is valid, and how many bytes of
`rest` belong to it. -/
def front (b : UInt8) (rest : List UInt8) : Option Char × Nat :=
  match lead? b with
  | none => (none, 0)
  | some (k, low, high) =>
    match continuations k low high (leadBits k b) 0 rest with
    | (some n, count) => (some (Char.ofNat n), count)
    | (none, count) => (none, count)

/-- The characters of valid bytes, and `none` for each maximal invalid part. -/
def pieces : List UInt8 → List (Option Char)
  | [] => []
  | b :: rest =>
    let (c, count) := front b rest
    c :: pieces (rest.drop count)
  termination_by bs => bs.length
  decreasing_by simp only [List.length_drop, List.length_cons]; omega

def decode? (bs : List UInt8) : Option (List Char) := (pieces bs).mapM id

def replacement : Char := Char.ofNat 0xFFFD

def decodeLossy (bs : List UInt8) : List Char := (pieces bs).map (·.getD replacement)

def toString? (bs : List UInt8) : Option String := (decode? bs).map String.ofList

def toStringLossy (bs : List UInt8) : String := String.ofList (decodeLossy bs)

end EventBroker.Utf8
