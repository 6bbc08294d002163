import EventBroker.Text.Unsigned
import EventBroker.Yaml.Node

/-! # Values of scalars

What a scalar says to a reader that knows what it wants: a text, a number, or nothing at all. A text
is taken as it stands, whatever it looks like; a number or nothing must be written plainly.
-/
set_option autoImplicit false

namespace EventBroker.Yaml

def nullTag : String := "tag:yaml.org,2002:null"

def integerTag : String := "tag:yaml.org,2002:int"

namespace Scalar

def isNullWord (text : String) : Bool := ["null", "Null", "NULL", "~"].contains text

/-- Whether a scalar stands for nothing. A tag that says so needs one of the words; without a tag
the empty text will do. -/
def isNull? (s : Scalar) : Option Bool :=
  if s.style ≠ .plain then some false
  else
    match s.tag with
    | some tag =>
      if tag ≠ nullTag then some false
      else if isNullWord s.text then some true
      else none
    | none => some (s.text.isEmpty || isNullWord s.text)

def readPlain (radix bound : Nat) (cs : List Char) : Option Nat :=
  if cs.head? = some '+' then none else Text.readUnsigned radix bound cs

/-- Whether a text is a zero with more digits behind it, which is no number. -/
def isPaddedZero (cs : List Char) : Bool :=
  cs.head? == some '0' && 1 < cs.length && cs.all Char.isDigit

/-- An unsigned number of at most `bound`, decimal or with the mark of its radix. -/
def readNumber (bound : Nat) (text : String) : Option Nat :=
  let cs := match text.toList with
    | '+' :: rest => rest
    | cs => cs
  match cs with
  | '0' :: 'x' :: digits => readPlain 16 bound digits
  | '0' :: 'o' :: digits => readPlain 8 bound digits
  | '0' :: 'b' :: digits => readPlain 2 bound digits
  | digits => if isPaddedZero digits then none else readPlain 10 bound digits

/-- The number that a scalar writes. It is plain, or a literal block that its tag calls a number. -/
def number? (bound : Nat) (s : Scalar) : Option Nat :=
  if s.style = .plain ∨ (s.style = .literal ∧ s.tag = some integerTag) then readNumber bound s.text
  else none

end Scalar

namespace Document

def optional? {α : Type} (d : Document) (read : Scalar → Option α) (n : Node) :
    Option (Option α) := do
  let s ← d.scalar? n
  if ← s.isNull? then return none else return some (← read s)

end Document

end EventBroker.Yaml
