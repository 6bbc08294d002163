/-! # Blank text

The white space of the Unicode standard: the characters with the property `White_Space`.
-/
set_option autoImplicit false

namespace EventBroker.Text

/-- Code points with the property `White_Space`, as closed ranges. -/
def blankRanges : List (Nat × Nat) :=
  [(0x09, 0x0D), (0x20, 0x20), (0x85, 0x85), (0xA0, 0xA0), (0x1680, 0x1680), (0x2000, 0x200A),
   (0x2028, 0x2029), (0x202F, 0x202F), (0x205F, 0x205F), (0x3000, 0x3000)]

def isBlank (c : Char) : Bool := blankRanges.any fun r => r.1 ≤ c.toNat && c.toNat ≤ r.2

def isBlankText (s : String) : Bool := s.toList.all isBlank

example : (blankRanges.map fun r => r.2 + 1 - r.1).sum = 25 := by decide

end EventBroker.Text
