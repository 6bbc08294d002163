import EventBroker.Net.SocketAddress
import EventBroker.Text.Percent
import EventBroker.Url.Domain

/-! # Hosts

The host of a URL is a domain or an address. An address of version 4 may have fewer than four parts,
each in one of three radices; one of version 6 stands in brackets. Where the scheme has no special
meaning, any text without separators is a host.
-/
set_option autoImplicit false

namespace EventBroker

inductive UrlError where
  | emptyHost
  | invalidDomain
  | invalidPort
  | invalidIpv4
  | invalidIpv6
  | invalidHostCharacter
  | noScheme
  deriving DecidableEq, Repr

namespace UrlError

def message : UrlError → String
  | emptyHost => "empty host"
  | invalidDomain => "invalid international domain name"
  | invalidPort => "invalid port number"
  | invalidIpv4 => "invalid IPv4 address"
  | invalidIpv6 => "invalid IPv6 address"
  | invalidHostCharacter => "invalid domain character"
  | noScheme => "relative URL without a base"

end UrlError

inductive Host where
  /-- A domain, or any text where the scheme has no special meaning. -/
  | name (text : String)
  | v4 (ip : Net.Ipv4)
  | v6 (ip : Net.Ipv6)
  deriving DecidableEq, Repr

namespace Host

def toText : Host → String
  | name text => text
  | v4 ip => ip.toText
  | v6 ip => "[" ++ ip.hexText ++ "]"

/-! ## Addresses -/

/-- The number that a part of an address writes: hexadecimal after `0x`, octal after `0`, else
decimal. The mark of a radix alone is zero. -/
def partValue? (part : List Char) : Option Nat :=
  let read (radix : Nat) (cs : List Char) : Option Nat :=
    if cs.isEmpty then some 0 else Text.readDigits radix cs
  match part with
  | [] => none
  | '0' :: 'x' :: rest | '0' :: 'X' :: rest => read 16 rest
  | '0' :: c :: rest => read 8 (c :: rest)
  | _ => read 10 part

def parts (domain : List Char) : List (List Char) :=
  let parts := domain.splitOn '.'
  if 1 < parts.length ∧ parts.getLast? = some [] then parts.dropLast else parts

/-- Whether a domain is meant as an address: its last part is a number. -/
def endsInNumber (domain : List Char) : Bool :=
  match (parts domain).getLast? with
  | some last => (!last.isEmpty && last.all Char.isDigit) || (partValue? last).isSome
  | none => false

/-- The address that a domain writes: all numbers but the last are bytes, and the last one fills
what is left. -/
def parseIpv4? (domain : List Char) : Option Net.Ipv4 := do
  let ns ← (parts domain).mapM partValue?
  guard (ns.length ≤ 4)
  let last ← ns.getLast?
  let bytes := ns.dropLast
  guard (bytes.all (· ≤ 255) && last < Nat.pow 256 (4 - bytes.length))
  return Net.Ipv4.ofNat (bytes.zipIdx.foldl (fun n (b, i) => n + b * Nat.pow 256 (3 - i)) last)

def parseIpv6 (cs : List Char) : Except UrlError Host :=
  match cs.getLast?, Net.takeIpv6 (cs.drop 1).dropLast with
  | some ']', some (ip, []) => .ok (v6 ip)
  | _, _ => .error .invalidIpv6

/-! ## Hosts -/

def parse (cs : List Char) : Except UrlError Host :=
  if cs.head? = some '[' then parseIpv6 cs
  else
    match (Utf8.decode? (Percent.decode (Utf8.encode cs))).bind Domain.toAscii? with
    | none => .error .invalidDomain
    | some domain =>
      if domain = "" then .error .emptyHost
      else if endsInNumber domain.toList then
        match parseIpv4? domain.toList with
        | some ip => .ok (v4 ip)
        | none => .error .invalidIpv4
      else .ok (name domain)

def isSeparator (c : Char) : Bool :=
  c.toNat == 0 || " \t\n\r#/:<>?@[\\]^|".toList.contains c

/-- The host that a text writes after a scheme with no special meaning. It may be empty. -/
def parseAny (cs : List Char) : Except UrlError Host :=
  if cs.head? = some '[' then parseIpv6 cs
  else if cs.any isSeparator then .error .invalidHostCharacter
  else .ok (name (String.ofList (Percent.encode Percent.isControl cs)))

end Host

end EventBroker
