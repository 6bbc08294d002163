import EventBroker.Text.Unsigned

/-! # Internet addresses

The addresses of the two versions of the protocol and their texts. Of version 6 the longest run of
zero groups is written as `::` if it has at least two.
-/
set_option autoImplicit false

namespace EventBroker.Net

structure Ipv4 where
  a : UInt8
  b : UInt8
  c : UInt8
  d : UInt8
  deriving DecidableEq, Repr

namespace Ipv4

def ofNat (n : Nat) : Ipv4 :=
  ⟨UInt8.ofNat (n / 0x1000000), UInt8.ofNat (n / 0x10000), UInt8.ofNat (n / 0x100), UInt8.ofNat n⟩

def halves (ip : Ipv4) : List UInt16 :=
  [UInt16.ofNat (ip.a.toNat * 256 + ip.b.toNat), UInt16.ofNat (ip.c.toNat * 256 + ip.d.toNat)]

def toText (ip : Ipv4) : String :=
  ".".intercalate ([ip.a, ip.b, ip.c, ip.d].map fun n => Text.decimal n.toNat)

end Ipv4

structure Ipv6 where
  groups : List UInt16
  length_eq : groups.length = 8
  deriving DecidableEq, Repr

namespace Ipv6

def ofGroups? (groups : List UInt16) : Option Ipv6 :=
  if h : groups.length = 8 then some ⟨groups, h⟩ else none

/-- Where the longest run of zeros starts and how long it is; of several the first. `here` is the
run that ends in front of the groups. -/
def longestZeros (index : Nat) (here best : Nat × Nat) : List UInt16 → Nat × Nat
  | [] => best
  | g :: rest =>
    if g = 0 then
      let here := if here.2 = 0 then (index, 1) else (here.1, here.2 + 1)
      longestZeros (index + 1) here (if best.2 < here.2 then here else best) rest
    else longestZeros (index + 1) (0, 0) best rest

def groupsText (groups : List UInt16) : String :=
  ":".intercalate (groups.map fun g => String.ofList (Nat.toDigits 16 g.toNat))

def hexText (ip : Ipv6) : String :=
  let (start, length) := longestZeros 0 (0, 0) (0, 0) ip.groups
  if 1 < length then
    groupsText (ip.groups.take start) ++ "::" ++ groupsText (ip.groups.drop (start + length))
  else groupsText ip.groups

def mapped? (ip : Ipv6) : Option Ipv4 :=
  match ip.groups with
  | [0, 0, 0, 0, 0, 0xFFFF, high, low] => some (Ipv4.ofNat (high.toNat * 0x10000 + low.toNat))
  | _ => none

/-- The text, with a mapped address written as one of version 4. -/
def toText (ip : Ipv6) : String :=
  match ip.mapped? with
  | some v4 => "::ffff:" ++ v4.toText
  | none => ip.hexText

end Ipv6

end EventBroker.Net
