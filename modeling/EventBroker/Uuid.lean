import EventBroker.Text.Hex

/-! # 128-bit identifiers and their spellings

An identifier is its 32 hexadecimal digits. It is written in lower case with hyphens after digits 8,
12, 16 and 20, and read from four spellings, hexadecimal digits in any case: 32 digits, hyphenated,
hyphenated in braces, and hyphenated after `urn:uuid:`.
-/
set_option autoImplicit false

namespace EventBroker

/-- A 128-bit identifier, most significant digit first. -/
structure Uuid where
  digits : List (Fin 16)
  length_eq : digits.length = 32
  deriving DecidableEq

namespace Uuid

instance : Inhabited Uuid := ⟨⟨List.replicate 32 0, by simp⟩⟩

def ofNat (n : Nat) : Uuid :=
  ⟨List.ofFn fun i : Fin 32 => ⟨n / Nat.pow 16 (31 - i.val) % 16, by omega⟩, by simp⟩

def groups : List Nat := [8, 4, 4, 4, 12]

/-- Cuts the digits into groups of the given sizes with a hyphen between them. -/
def hyphenate : List Nat → List Char → List Char
  | [], _ => []
  | [n], ds => ds.take n
  | n :: ns, ds => ds.take n ++ '-' :: hyphenate ns (ds.drop n)

def simple (u : Uuid) : List Char := u.digits.map Hex.digit

def canonical (u : Uuid) : List Char := hyphenate groups u.simple

def toText (u : Uuid) : String := String.ofList u.canonical

def readDigits (cs : List Char) : Option (List (Fin 16)) := cs.mapM Hex.value?

def readSimple (cs : List Char) : Option Uuid :=
  match readDigits cs with
  | some ds => if h : ds.length = 32 then some ⟨ds, h⟩ else none
  | none => none

/-- Removes one hyphen between groups of the given sizes; fails if one is missing. -/
def joinGroups : List Nat → List Char → Option (List Char)
  | [], cs => if cs.isEmpty then some [] else none
  | [n], cs => if cs.length = n then some cs else none
  | n :: ns, cs =>
    match cs.drop n with
    | '-' :: rest => (joinGroups ns rest).map (cs.take n ++ ·)
    | _ => none

def readHyphenated (cs : List Char) : Option Uuid :=
  (joinGroups groups cs).bind readSimple

/-- The scheme in front of the uniform resource name, compared without case. -/
def urnScheme : List Char := "urn:uuid:".toList

/-- Reads any accepted spelling. The length decides which spelling is meant. -/
def parse? (cs : List Char) : Option Uuid :=
  if cs.length = 32 then readSimple cs
  else if cs.length = 36 then readHyphenated cs
  else if cs.length = 38 then
    if cs.head? = some '{' ∧ cs.getLast? = some '}' then readHyphenated (cs.drop 1).dropLast
    else none
  else if cs.length = 45 then
    if (cs.take 9).map Char.toLower = urnScheme then readHyphenated (cs.drop 9) else none
  else none

end Uuid

structure ChannelId where
  uuid : Uuid
  deriving DecidableEq, Inhabited

structure EventId where
  uuid : Uuid
  deriving DecidableEq, Inhabited

def ChannelId.toText (id : ChannelId) : String := id.uuid.toText

def EventId.toText (id : EventId) : String := id.uuid.toText

def ChannelId.parse? (text : String) : Option ChannelId := (Uuid.parse? text.toList).map (⟨·⟩)

def EventId.parse? (text : String) : Option EventId := (Uuid.parse? text.toList).map (⟨·⟩)

def invalidIdMessage (text : String) : String := "invalid id: " ++ text

end EventBroker
