import EventBroker.Net.Address

/-! # Socket addresses

An internet address with a port: `1.2.3.4:80`, or `[::1]:80` with the address in brackets and maybe
a scope after a `%`. `SocketAddress.parse?` reads nothing but such a text, without blanks or names.
-/
set_option autoImplicit false

namespace EventBroker.Net

/-- A number of at most `bound` at the front of a text, and what follows. It may have leading zeros
and any number of digits as `zeros` and `most` say. -/
def takeNumber (radix bound : Nat) (most : Option Nat) (zeros : Bool) (cs : List Char) :
    Option (Nat × List Char) :=
  let isDigit (c : Char) := (Text.digitValue? radix c).isSome
  let digits := cs.takeWhile isDigit
  if most.any (· < digits.length) then none
  else if !zeros && digits.head? == some '0' && 1 < digits.length then none
  else (Text.readUnsigned radix bound digits).map fun n => (n, cs.dropWhile isDigit)

def takeChar (c : Char) : List Char → Option (List Char)
  | d :: rest => if d = c then some rest else none
  | [] => none

/-! ## Addresses -/

def takeOctet (cs : List Char) : Option (Nat × List Char) := takeNumber 10 255 (some 3) false cs

def takeIpv4 (cs : List Char) : Option (Ipv4 × List Char) := do
  let (a, cs) ← takeOctet cs
  let (b, cs) ← takeOctet (← takeChar '.' cs)
  let (c, cs) ← takeOctet (← takeChar '.' cs)
  let (d, cs) ← takeOctet (← takeChar '.' cs)
  return (⟨UInt8.ofNat a, UInt8.ofNat b, UInt8.ofNat c, UInt8.ofNat d⟩, cs)

/-- Groups at the front of a text, at most `room`, with colons between them. An address of version 4
may stand for the last two. Gives the groups, whether such an address ended them, and what follows.
-/
def takeGroups : Nat → Bool → List Char → List UInt16 × Bool × List Char
  | 0, _, cs => ([], false, cs)
  | room + 1, first, cs =>
    let start := if first then some cs else takeChar ':' cs
    match start.bind fun cs => if room = 0 then none else takeIpv4 cs with
    | some (ip, rest) => (ip.halves, true, rest)
    | none =>
      match start.bind fun cs => takeNumber 16 0xFFFF (some 4) true cs with
      | some (g, rest) =>
        let (groups, embedded, rest) := takeGroups room false rest
        (UInt16.ofNat g :: groups, embedded, rest)
      | none => ([], false, cs)

/-- An address of version 6 at the front of a text. A `::` stands for at least one group of zeros
and does not follow an address of version 4. -/
def takeIpv6 (cs : List Char) : Option (Ipv6 × List Char) := do
  let (head, embedded, cs) := takeGroups 8 true cs
  if head.length = 8 then return (← Ipv6.ofGroups? head, cs)
  guard !embedded
  let cs ← takeChar ':' (← takeChar ':' cs)
  let (tail, _, cs) := takeGroups (7 - head.length) true cs
  let zeros := List.replicate (8 - head.length - tail.length) 0
  return (← Ipv6.ofGroups? (head ++ zeros ++ tail), cs)

/-! ## Socket addresses -/

inductive SocketAddress where
  | v4 (ip : Ipv4) (port : UInt16)
  | v6 (ip : Ipv6) (scope : UInt32) (port : UInt16)
  deriving DecidableEq, Repr

namespace SocketAddress

def takePort (cs : List Char) : Option (UInt16 × List Char) := do
  let (port, cs) ← takeNumber 10 0xFFFF none true (← takeChar ':' cs)
  return (UInt16.ofNat port, cs)

/-- The scope of an address; without one it is 0. -/
def takeScope (cs : List Char) : UInt32 × List Char :=
  match (takeChar '%' cs).bind (takeNumber 10 0xFFFFFFFF none true) with
  | some (scope, rest) => (UInt32.ofNat scope, rest)
  | none => (0, cs)

def parse? (text : String) : Option SocketAddress := do
  let cs := text.toList
  let (address, rest) ←
    match cs with
    | '[' :: cs => do
      let (ip, cs) ← takeIpv6 cs
      let (scope, cs) := takeScope cs
      let (port, cs) ← takePort (← takeChar ']' cs)
      pure (v6 ip scope port, cs)
    | _ => do
      let (ip, cs) ← takeIpv4 cs
      let (port, cs) ← takePort cs
      pure (v4 ip port, cs)
  guard rest.isEmpty
  return address

def toText : SocketAddress → String
  | v4 ip port => ip.toText ++ ":" ++ Text.decimal port.toNat
  | v6 ip scope port =>
    let scopeText := if scope = 0 then "" else "%" ++ Text.decimal scope.toNat
    "[" ++ ip.toText ++ scopeText ++ "]:" ++ Text.decimal port.toNat

end SocketAddress

end EventBroker.Net
