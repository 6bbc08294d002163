/-! # Places in a text

What a reader of YAML needs to know about characters and about where it is: the column decides what
belongs together, and a key must be followed by its colon soon and on the same line.
-/
set_option autoImplicit false

namespace EventBroker.Yaml

/-- A place: how many characters, and on its line how many, come before it. -/
structure Mark where
  index : Nat
  line : Nat
  column : Nat
  deriving DecidableEq, Repr

namespace Mark

def start : Mark := ⟨0, 0, 0⟩

def forward (m : Mark) (n : Nat) : Mark := ⟨m.index + n, m.line, m.column + n⟩

def newline (m : Mark) : Mark := ⟨m.index + 1, m.line + 1, 0⟩

end Mark

/-! ## Characters -/

def isSpaceOrTab (c : Char) : Bool := c == ' ' || c == '\t'

/-- Writes all line breaks as line feeds, except the two separators of the Unicode standard. -/
def unifyBreaks : List Char → List Char
  | '\r' :: '\n' :: rest => '\n' :: unifyBreaks rest
  | c :: rest => (if c = '\r' ∨ c.toNat = 0x85 then '\n' else c) :: unifyBreaks rest
  | [] => []

/-- Line feed, line separator and paragraph separator: all line breaks once they are unified. -/
def isBreak (c : Char) : Bool := c == '\n' || c.toNat == 0x2028 || c.toNat == 0x2029

/-- Whether there is a blank, a line break or nothing at the front. -/
def startsBlank : List Char → Bool
  | [] => true
  | c :: _ => isSpaceOrTab c || isBreak c

def startsBreak : List Char → Bool
  | [] => true
  | c :: _ => isBreak c

def isAllowed (c : Char) : Bool :=
  let n := c.toNat
  n == 9 || n == 10 || n == 13 || (0x20 ≤ n && n ≤ 0x7E) || n == 0x85 ||
    (0xA0 ≤ n && n ≤ 0xFFFD) || 0x10000 ≤ n

/-- Whether three equal characters at the front mark the start or the end of a document. -/
def startsMarker (c : Char) : List Char → Bool
  | c₁ :: c₂ :: c₃ :: rest => c₁ == c && c₂ == c && c₃ == c && startsBlank rest
  | _ => false

def isDocumentMark (m : Mark) (cs : List Char) : Bool :=
  m.column == 0 && (startsMarker '-' cs || startsMarker '.' cs)

def isWordChar (c : Char) : Bool := c.isAlphanum || c == '_' || c == '-'

end EventBroker.Yaml
