import EventBroker.Text.Hex
import EventBroker.Text.Utf8

/-! # Percent coding

A byte is written as `%` and two hexadecimal digits when a set asks for it. Decoding is lenient: a
`%` that two hexadecimal digits do not follow stands for itself.
-/
set_option autoImplicit false

namespace EventBroker.Percent

/-- Replaces each `%` with two hexadecimal digits by the byte they write. -/
def decode : List UInt8 → List UInt8
  | [] => []
  | b :: rest =>
    if b = 0x25 then
      match rest with
      | h :: l :: rest' =>
        match Hex.value? (Char.ofNat h.toNat), Hex.value? (Char.ofNat l.toNat) with
        | some hi, some lo => Hex.byte hi lo :: decode rest'
        | _, _ => b :: decode (h :: l :: rest')
      | short => b :: decode short
    else b :: decode rest
  termination_by bs => bs.length
  decreasing_by all_goals simp_all <;> omega

def decodeText? (s : String) : Option String := Utf8.toString? (decode (Utf8.ofString s))

def isControl (c : Char) : Bool := c.toNat < 0x20 || c.toNat == 0x7F

def escape (b : UInt8) : List Char := '%' :: Hex.ofByteUpper b

/-- Writes a character as itself, or as the codes of its bytes if the set asks for it or it is not
ASCII. -/
def encodeChar (set : Char → Bool) (c : Char) : List Char :=
  if c.toNat < 128 ∧ set c = false then [c] else (Utf8.encodeChar c).flatMap escape

def encode (set : Char → Bool) (cs : List Char) : List Char := cs.flatMap (encodeChar set)

end EventBroker.Percent
