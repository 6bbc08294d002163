import EventBroker.Url.Domain.Label

/-! # Domains

The name of a host is brought to one form: case, width and style of letters do not matter, letters
and marks are composed, some characters count for nothing, and labels with other characters than
ASCII are written in Punycode. Then it holds ASCII only, and nothing that means something elsewhere
in a URL.
-/
set_option autoImplicit false

namespace EventBroker.Domain

def isForbidden (c : Char) : Bool :=
  c.toNat ≤ 0x20 || c.toNat == 0x7F || "%#/:<>?@[\\]^|".toList.contains c

def canonical? (cs : List Char) : Option (List Char) :=
  (cs.mapM fold?).map fun images => Text.composed images.flatten

/-- Whether each label is one, and all of them may stand beside each other. -/
def areValid (labels : List (List Char)) : Bool :=
  labels.all Label.isValid &&
    (!labels.any Label.hasRightToLeft || labels.all Label.runsOneWay)

def toAscii? (cs : List Char) : Option String := do
  let text ← canonical? cs
  let labels ← (text.splitOn '.').mapM Label.ofWritten?
  guard (areValid labels)
  let ascii := List.intercalate ['.'] (labels.map Label.written)
  guard (!ascii.any isForbidden)
  return String.ofList ascii

end EventBroker.Domain
