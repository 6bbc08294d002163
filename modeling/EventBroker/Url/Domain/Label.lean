import EventBroker.Text.Composition
import EventBroker.Text.Direction
import EventBroker.Text.Joining
import EventBroker.Text.Mark
import EventBroker.Url.Domain.Table
import EventBroker.Url.Punycode

/-! # Labels

A label of a domain is a list of characters, each of which stands for itself: a label begins with no
mark, joiners stand only where they change how letters look, and a label beside one that is written
from right to left runs in one direction. A label with characters beyond ASCII is written in
Punycode; `ofWritten?` reads that form back.
-/
set_option autoImplicit false

namespace EventBroker.Domain

open Text

/-- What a character counts as; none if no domain holds it. -/
def fold? (c : Char) : Option (List Char) :=
  if c.toNat < 0x80 then some [c.toLower]
  else if disallowed.contains c then none
  else if ignored.contains c then some []
  else some ((folded.image? c).getD [c])

namespace Label

/-! ## Joiners -/

def joiner : Char := Char.ofNat 0x200D
def nonJoiner : Char := Char.ofNat 0x200C

/-- Whether a character takes the vowel from the one before it: those have a combining class of
their own. -/
def isVirama (c : Char) : Bool := combiningClass c == 9

/-- Whether the joiners in a text stand where they may, where `before` comes first, in reverse: after
a virama, and one that keeps letters apart also between letters that would join. -/
def joinersFit : List Char → List Char → Bool
  | _, [] => true
  | before, c :: after =>
    let fits := before.head?.any isVirama || (c == nonJoiner && Joining.joins before after)
    ((c != joiner && c != nonJoiner) || fits) && joinersFit (c :: before) after

/-! ## Directions -/

/-- Whether a label fits beside one that is written from right to left. It begins with a letter,
which gives its direction, and ends with a letter of that direction or a digit, marks aside. Digits
of one kind only stand in a label that runs to the left, and no Arabic digits in one that runs to the
right. -/
def runsOneWay (label : List Char) : Bool :=
  let directions := label.map Direction.ofChar
  let last := (directions.reverse.dropWhile (· == .mark)).head?
  let isFree (d : Direction) : Bool := d == .europeanDigit || d == .neutral || d == .mark
  match directions.head? with
  | none => true
  | some .leftToRight =>
    directions.all (fun d => d == .leftToRight || isFree d) &&
      last.any fun d => d == .leftToRight || d == .europeanDigit
  | some .rightToLeft =>
    directions.all (fun d => d == .rightToLeft || d == .arabicDigit || isFree d) &&
      !(directions.contains .europeanDigit && directions.contains .arabicDigit) &&
      last.any fun d => d == .rightToLeft || d == .europeanDigit || d == .arabicDigit
  | some _ => false

def hasRightToLeft (label : List Char) : Bool :=
  label.any fun c => let d := Direction.ofChar c; d == .rightToLeft || d == .arabicDigit

/-! ## Forms -/

def isAscii (cs : List Char) : Bool := cs.all fun c => c.toNat < 0x80

/-- How many characters a label has at most if it is written in Punycode. -/
def maxLength : Nat := 1000

def maxWrittenLength : Nat := 2000

def isValid (label : List Char) : Bool :=
  label.all (fun c => fold? c == some [c]) && composed label == label &&
    !label.head?.any isMark && joinersFit [] label &&
    (isAscii label || label.length ≤ maxLength)

def codedMark : List Char := "xn--".toList

/-- The label that a folded text writes. What is in Punycode must need it. -/
def ofWritten? (text : List Char) : Option (List Char) :=
  if codedMark <+: text then
    let code := text.drop codedMark.length
    if isAscii code ∧ code.length ≤ maxWrittenLength then
      (Punycode.decode code).filter fun label => !isAscii label && Punycode.encode label == code
    else none
  else some text

def written (label : List Char) : List Char :=
  if isAscii label then label else codedMark ++ Punycode.encode label

end Label

end EventBroker.Domain
