import EventBroker.Text.Hex
import EventBroker.Yaml.Mark

/-! # Scalars

A scalar is a text, written plainly, in single or double quotes, or as a block. Each reader starts
at the first character of a scalar and gives its text, the place after it and what follows, or
nothing if the scalar is malformed. Line breaks inside a scalar are folded: a single one becomes a
space, and of several the first is left out.
-/
set_option autoImplicit false

namespace EventBroker.Yaml

inductive Style where
  | plain
  | quoted
  | literal
  | folded
  deriving DecidableEq, Repr

structure Taken where
  text : List Char
  mark : Mark
  rest : List Char

/-- What has been read of a scalar: its text, latest first, and the blanks after it that are not
part of it yet. -/
structure Gathered where
  text : List Char
  inBlanks : Bool
  /-- Blanks on the line of the text, latest first. -/
  blanks : List Char
  /-- Whether the blanks reached beyond the line of the text. -/
  broken : Bool
  firstBreak : Option Char
  laterBreaks : List Char

namespace Gathered

def empty : Gathered := ⟨[], false, [], false, none, []⟩

def blank (g : Gathered) (c : Char) : Gathered :=
  if g.broken then { g with inBlanks := true }
  else { g with inBlanks := true, blanks := c :: g.blanks }

def lineBreak (g : Gathered) (c : Char) : Gathered :=
  if g.broken then { g with inBlanks := true, laterBreaks := c :: g.laterBreaks }
  else { g with inBlanks := true, blanks := [], broken := true, firstBreak := some c }

/-- Makes the blanks part of the text. -/
def join (g : Gathered) : Gathered :=
  let joined :=
    if !g.broken then g.blanks
    else if g.firstBreak = some '\n' then
      if g.laterBreaks.isEmpty then [' '] else g.laterBreaks
    else g.laterBreaks ++ g.firstBreak.toList
  ⟨joined ++ g.text, false, [], false, none, []⟩

def char (g : Gathered) (c : Char) : Gathered := { g with text := c :: g.text }

end Gathered

/-! ## Plain scalars -/

/-- Whether a character ends a plain scalar inside brackets. -/
def isFlowIndicator (c : Char) : Bool :=
  c == ',' || c == '[' || c == ']' || c == '{' || c == '}'

/-- A plain scalar, from the place where `g` has been gathered; gives also whether it reached beyond
its line. `flow` says whether it stands inside brackets; outside of them it ends at a line that is
indented less than `indent`. -/
def takePlain (flow : Bool) (indent : Int) (m : Mark) (g : Gathered) :
    List Char → Option (Taken × Bool)
  | [] => some (⟨g.text.reverse, m, []⟩, g.broken)
  | c :: rest =>
    let stop := some (⟨g.text.reverse, m, c :: rest⟩, g.broken)
    if isSpaceOrTab c then
      if g.broken && c == '\t' && m.column < indent then none
      else takePlain flow indent (m.forward 1) (g.blank c) rest
    else if isBreak c then takePlain flow indent m.newline (g.lineBreak c) rest
    else if g.inBlanks && (!flow && m.column < indent || c == '#') then stop
    else if isDocumentMark m (c :: rest) then stop
    else if c == ':' && (startsBlank rest) then stop
    else if flow && c == ':' && rest.head?.any fun d => isFlowIndicator d || d == '?' then none
    else if flow && isFlowIndicator c then stop
    else takePlain flow indent (m.forward 1) (g.join.char c) rest

/-! ## Quoted scalars -/

def takeSingleQuoted (m : Mark) (g : Gathered) : List Char → Option Taken
  | [] => none
  | c :: rest =>
    if isSpaceOrTab c then takeSingleQuoted (m.forward 1) (g.blank c) rest
    else if isBreak c then takeSingleQuoted m.newline (g.lineBreak c) rest
    else if isDocumentMark m (c :: rest) then none
    else
      let g := if g.inBlanks then g.join else g
      match c, rest with
      | '\'', '\'' :: rest => takeSingleQuoted (m.forward 2) (g.char '\'') rest
      | '\'', rest => some ⟨g.text.reverse, m.forward 1, rest⟩
      | c, rest => takeSingleQuoted (m.forward 1) (g.char c) rest

def escaped? (c : Char) : Option Char :=
  match c with
  | '0' => some (Char.ofNat 0)
  | 'a' => some (Char.ofNat 7)
  | 'b' => some (Char.ofNat 8)
  | 't' => some '\t'
  | '\t' => some '\t'
  | 'n' => some '\n'
  | 'v' => some (Char.ofNat 11)
  | 'f' => some (Char.ofNat 12)
  | 'r' => some '\r'
  | 'e' => some (Char.ofNat 27)
  | ' ' => some ' '
  | '"' => some '"'
  | '/' => some '/'
  | '\\' => some '\\'
  | 'N' => some (Char.ofNat 0x85)
  | '_' => some (Char.ofNat 0xA0)
  | 'L' => some (Char.ofNat 0x2028)
  | 'P' => some (Char.ofNat 0x2029)
  | _ => none

def coded? (digits : List Char) : Option Char := do
  let ds ← digits.mapM Hex.value?
  let n := ds.foldl (fun n d => n * 16 + d.val) 0
  if (0xD800 ≤ n ∧ n ≤ 0xDFFF) ∨ 0x10FFFF < n then none else some (Char.ofNat n)

def takeDoubleQuoted (m : Mark) (g : Gathered) : List Char → Option Taken
  | [] => none
  | c :: rest =>
    if isSpaceOrTab c then takeDoubleQuoted (m.forward 1) (g.blank c) rest
    else if isBreak c then takeDoubleQuoted m.newline (g.lineBreak c) rest
    else if isDocumentMark m (c :: rest) then none
    else
      let g := if g.inBlanks then g.join else g
      if c == '"' then some ⟨g.text.reverse, m.forward 1, rest⟩
      else if c == '\\' then
        match rest with
        | 'x' :: a :: b :: rest =>
          (coded? [a, b]).bind fun d => takeDoubleQuoted (m.forward 4) (g.char d) rest
        | 'u' :: a₁ :: a₂ :: a₃ :: a₄ :: rest =>
          (coded? [a₁, a₂, a₃, a₄]).bind fun d => takeDoubleQuoted (m.forward 6) (g.char d) rest
        | 'U' :: a₁ :: a₂ :: a₃ :: a₄ :: a₅ :: a₆ :: a₇ :: a₈ :: rest =>
          (coded? [a₁, a₂, a₃, a₄, a₅, a₆, a₇, a₈]).bind fun d =>
            takeDoubleQuoted (m.forward 10) (g.char d) rest
        | e :: rest =>
          if isBreak e then
            takeDoubleQuoted m.newline { g with inBlanks := true, broken := true } rest
          else (escaped? e).bind fun d => takeDoubleQuoted (m.forward 2) (g.char d) rest
        | [] => none
      else takeDoubleQuoted (m.forward 1) (g.char c) rest

/-! ## Block scalars -/

/-- What becomes of the line breaks at the end of a block: all but one are dropped, all are, or
none. -/
inductive Chomp where
  | clip
  | strip
  | keep
  deriving DecidableEq, Repr

/-- The header of a block after its indicator: how to chomp, the indentation if one is given, and
what follows. The indentation is a digit other than zero. -/
def takeBlockHeader (m : Mark) (cs : List Char) :
    Option (Chomp × Option Nat × Mark × List Char) :=
  let chomp? : Char → Option Chomp
    | '+' => some .keep
    | '-' => some .strip
    | _ => none
  let digit? (c : Char) : Option Nat := if c.isDigit then some (c.toNat - 48) else none
  match cs with
  | [] => some (.clip, none, m, [])
  | c :: rest =>
    match chomp? c, digit? c with
    | some chomp, _ =>
      match rest with
      | d :: rest' =>
        match digit? d with
        | some 0 => none
        | some n => some (chomp, some n, m.forward 2, rest')
        | none => some (chomp, none, m.forward 1, rest)
      | [] => some (chomp, none, m.forward 1, [])
    | none, some 0 => none
    | none, some n =>
      match rest with
      | d :: rest' =>
        match chomp? d with
        | some chomp => some (chomp, some n, m.forward 2, rest')
        | none => some (.clip, some n, m.forward 1, rest)
      | [] => some (.clip, some n, m.forward 1, [])
    | none, none => some (.clip, none, m, c :: rest)

/-- The indentation and the line breaks in front of a line of a block, breaks latest first. As long
as the indentation is not known, all spaces count as indentation; `widest` is the widest so far. A
tab in the indentation is an error. -/
def takeBlockBreaks (indent : Option Nat) (widest : Nat) (m : Mark) (breaks : List Char) :
    List Char → Option (Nat × List Char × Mark × List Char)
  | [] => some (max widest m.column, breaks, m, [])
  | c :: rest =>
    let inIndent := indent.all fun n => m.column < n
    if c == ' ' && inIndent then takeBlockBreaks indent widest (m.forward 1) breaks rest
    else if c == '\t' && inIndent then none
    else if isBreak c then
      takeBlockBreaks indent (max widest m.column) m.newline (c :: breaks) rest
    else some (max widest m.column, breaks, m, c :: rest)

/-- What has been read of a block: its text and the breaks after the one that ends its last line,
both latest first. -/
structure BlockText where
  text : List Char
  lastBreak : Option Char
  breaks : List Char
  /-- Whether the last line began with a blank. -/
  indented : Bool

/-- The lines of a block from the place where the indentation of a line has been taken. A line takes
at least one character, so their number is bounded by the length of the text. -/
def takeBlockLines (folded : Bool) (indent : Nat) :
    Nat → Mark → BlockText → List Char → Option (BlockText × Mark × List Char)
  | 0, m, b, cs => some (b, m, cs)
  | fuel + 1, m, b, cs =>
    if m.column ≠ indent ∨ cs.isEmpty then some (b, m, cs)
    else
      let indented := cs.head?.any isSpaceOrTab
      let lead :=
        if folded && b.lastBreak = some '\n' && !b.indented && !indented then
          if b.breaks.isEmpty then [' '] else []
        else b.lastBreak.toList
      let line := cs.takeWhile fun c => !isBreak c
      let text := line.reverse ++ (b.breaks ++ (lead ++ b.text))
      let m := m.forward line.length
      match cs.dropWhile fun c => !isBreak c with
      | [] => some (⟨text, none, [], indented⟩, m, [])
      | c :: rest =>
        match takeBlockBreaks (some indent) 0 m.newline [] rest with
        | none => none
        | some (_, breaks, m, rest) =>
          takeBlockLines folded indent fuel m ⟨text, some c, breaks, indented⟩ rest

/-- A block scalar after its indicator. `parent` is the indentation of what it stands in. -/
def takeBlock (folded : Bool) (parent : Int) (m : Mark) (cs : List Char) : Option Taken := do
  let (chomp, increment, m, cs) ← takeBlockHeader m cs
  let m := m.forward (cs.takeWhile isSpaceOrTab).length
  let cs := cs.dropWhile isSpaceOrTab
  let comment := if cs.head? = some '#' then cs.takeWhile (fun c => !isBreak c) else []
  let m := m.forward comment.length
  let cs := cs.drop comment.length
  guard (startsBreak cs)
  let (m, cs) := match cs with
    | _ :: rest => (m.newline, rest)
    | [] => (m, [])
  let given := increment.map fun n => if 0 ≤ parent then parent.toNat + n else n
  let (widest, breaks, m, cs) ← takeBlockBreaks given 0 m [] cs
  let indent := given.getD (max widest (max (parent + 1).toNat 1))
  let (b, m, cs) ← takeBlockLines folded indent (cs.length + 1) m ⟨[], none, breaks, false⟩ cs
  let tail := match chomp with
    | .strip => []
    | .clip => b.lastBreak.toList
    | .keep => b.breaks ++ b.lastBreak.toList
  return ⟨(tail ++ b.text).reverse, m, cs⟩

end EventBroker.Yaml
