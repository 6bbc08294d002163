import EventBroker.Text.Composition.Table

/-! # Composition

One form for texts that look the same: a letter and its mark become the one character that stands for
both, where there is one. Before that, composite characters are taken apart and the marks of each
character are put in the order of their combining classes. So `composed` gives the same for a
composite character and for its parts.
-/
set_option autoImplicit false

namespace EventBroker.Text

/-! ## Syllables of Hangul

A syllable is made of a leading consonant, a vowel and perhaps a trailing consonant, and its place in
the code follows from theirs.
-/

namespace Hangul

def leading : Nat := 0x1100
def vowel : Nat := 0x1161
def trailing : Nat := 0x11A7
def syllable : Nat := 0xAC00

def leadingCount : Nat := 19
def vowelCount : Nat := 21
/-- Counts the lack of a trailing consonant. -/
def trailingCount : Nat := 28

/-- The two parts of a syllable: a consonant and a vowel, or a syllable and a trailing consonant. -/
def parts? (n : Nat) : Option (Nat × Nat) :=
  if syllable ≤ n ∧ n < syllable + leadingCount * vowelCount * trailingCount then
    let i := n - syllable
    if i % trailingCount = 0 then
      some (leading + i / trailingCount / vowelCount, vowel + i / trailingCount % vowelCount)
    else some (n - i % trailingCount, trailing + i % trailingCount)
  else none

def join? (a b : Nat) : Option Nat :=
  if leading ≤ a ∧ a < leading + leadingCount ∧ vowel ≤ b ∧ b < vowel + vowelCount then
    some (syllable + ((a - leading) * vowelCount + (b - vowel)) * trailingCount)
  else if syllable ≤ a ∧ a < syllable + leadingCount * vowelCount * trailingCount ∧
      (a - syllable) % trailingCount = 0 ∧ trailing < b ∧ b < trailing + trailingCount then
    some (a + (b - trailing))
  else none

end Hangul

/-! ## Composites -/

def parts? (c : Char) : Option (Char × Char) :=
  match Hangul.parts? c.toNat with
  | some (a, b) => some (Char.ofNat a, Char.ofNat b)
  | none =>
    match composites.image? c with
    | some [a, b] => some (a, b)
    | _ => none

def join? (a b : Char) : Option Char :=
  match Hangul.join? a.toNat b.toNat with
  | some n => some (Char.ofNat n)
  | none =>
    (composites.find? fun run => run.image == [a.toNat, b.toNat]).map (Char.ofNat ·.first)

/-- Takes a character apart, and what its first part is made of up to a depth. Second parts are no
composites. -/
def takeApart : Nat → Char → List Char
  | 0, c => [c]
  | depth + 1, c =>
    match parts? c with
    | some (a, b) => takeApart depth a ++ [b]
    | none => [c]

/-- No composite has parts of parts of parts that are composites. -/
def partDepth : Nat := 3

/-! ## Order of marks -/

def insertMark (c : Char) : List Char → List Char
  | [] => [c]
  | d :: ds =>
    if combiningClass d ≤ combiningClass c then d :: insertMark c ds else c :: d :: ds

/-- Orders the marks of each character by their classes; `marks` are those since the last character
of class zero. -/
def orderFrom (marks : List Char) : List Char → List Char
  | [] => marks
  | c :: cs =>
    if combiningClass c = 0 then marks ++ c :: orderFrom [] cs
    else orderFrom (insertMark c marks) cs

def decomposed (cs : List Char) : List Char := orderFrom [] (cs.flatMap (takeApart partDepth))

/-! ## Joining -/

/-- Joins a character with what follows. A mark joins unless a kept mark before it has its class or a
higher one; a character of class zero joins only if it follows directly. -/
def joinFrom (base : Char) (kept : List Char) : List Char → List Char
  | [] => base :: kept
  | c :: cs =>
    let isFree := kept.getLast?.all fun d => combiningClass d < combiningClass c
    match if isFree then join? base c else none with
    | some composite => joinFrom composite kept cs
    | none =>
      if combiningClass c = 0 then base :: kept ++ joinFrom c [] cs
      else joinFrom base (kept ++ [c]) cs

/-- The composed form of a text whose characters all stand in composed texts. -/
def composed (cs : List Char) : List Char :=
  match decomposed cs with
  | [] => []
  | c :: rest => joinFrom c [] rest

end EventBroker.Text
