import EventBroker.Text.Utf8
import EventBroker.Yaml.Scalar

/-! # Tokens

A text is cut into tokens: scalars, names, the marks of collections and documents, and for every
step of the indentation a token that opens or closes a block. `Token.ofText?` gives the tokens of a
text, or nothing if it cannot be cut.

A key of a mapping is known only when its colon comes. Until then the place where it began is
remembered, and the tokens that open the key are put there afterwards.
-/
set_option autoImplicit false

namespace EventBroker.Yaml

inductive Token where
  | versionDirective (major minor : Nat)
  /-- A handle and what it stands for in front of tags. -/
  | tagDirective (handle stem : String)
  | documentStart
  | documentEnd
  | blockSequenceStart
  | blockMappingStart
  | blockEnd
  | flowSequenceStart
  | flowSequenceEnd
  | flowMappingStart
  | flowMappingEnd
  | blockEntry
  | flowEntry
  | key
  | value
  | alias (name : String)
  | anchor (name : String)
  | tag (handle suffix : String)
  | scalar (text : String) (style : Style)
  deriving DecidableEq, Repr

/-- A place where a key may have begun. -/
structure KeyStart where
  /-- How many tokens come before the key. -/
  tokens : Nat
  mark : Mark
  /-- Whether what began there must turn out to be a key. -/
  required : Bool

structure Scanner where
  mark : Mark
  rest : List Char
  tokens : List Token
  /-- The column of the innermost block; -1 outside of all blocks. -/
  indent : Int
  /-- The columns of the blocks around it, innermost first. -/
  outer : List Int
  /-- Where a key may have begun in each collection in brackets, innermost first, and outside of all
  brackets. -/
  keys : List (Option KeyStart)
  keyAllowed : Bool

namespace Scanner

def start (cs : List Char) : Scanner := ⟨.start, cs, [], -1, [], [none], true⟩

def inFlow (s : Scanner) : Bool := 1 < s.keys.length

def emit (s : Scanner) (t : Token) : Scanner := { s with tokens := s.tokens ++ [t] }

def skip (s : Scanner) (n : Nat) : Scanner :=
  { s with mark := s.mark.forward n, rest := s.rest.drop n }

def moveTo (s : Scanner) (m : Mark) (rest : List Char) : Scanner := { s with mark := m, rest }

/-! ## Blanks and comments -/

/-- A byte order mark may stand in front of a line. -/
def isByteOrderMark (c : Char) : Bool := c.toNat == 0xFEFF

/-- The place of the next token. A tab counts as a blank where `tabs` says so; a line break lets a
key begin unless the reader is inside brackets. -/
def toNext (flow tabs keyAllowed : Bool) (comment : Bool) (m : Mark) :
    List Char → Mark × List Char × Bool
  | [] => (m, [], keyAllowed)
  | c :: rest =>
    if isBreak c then
      let keyAllowed := keyAllowed || !flow
      toNext flow (flow || !keyAllowed) keyAllowed false m.newline rest
    else if comment || c == '#' then toNext flow tabs keyAllowed true (m.forward 1) rest
    else if c == ' ' || (tabs && c == '\t') || (m.column == 0 && isByteOrderMark c) then
      toNext flow tabs keyAllowed false (m.forward 1) rest
    else (m, c :: rest, keyAllowed)

def skipBlanks (s : Scanner) : Scanner :=
  let (mark, rest, keyAllowed) :=
    toNext s.inFlow (s.inFlow || !s.keyAllowed) s.keyAllowed false s.mark s.rest
  { s with mark, rest, keyAllowed }

/-! ## Keys and blocks -/

/-- The most characters that a key may have before its colon. -/
def maxKeyLength : Nat := 1024

/-- Forgets places where a key can no longer have begun; fails if one was required. -/
def dropStaleKeys (s : Scanner) : Option Scanner := do
  let keys ← s.keys.mapM fun key =>
    match key with
    | none => some none
    | some k =>
      if k.mark.line < s.mark.line ∨ k.mark.index + maxKeyLength < s.mark.index then
        if k.required then none else some none
      else some (some k)
  return { s with keys }

def setKey (s : Scanner) (key : Option KeyStart) : Scanner :=
  { s with keys := key :: s.keys.drop 1 }

def dropKey (s : Scanner) : Option Scanner :=
  match s.keys.head?.join with
  | some k => if k.required then none else some (s.setKey none)
  | none => some (s.setKey none)

def saveKey (s : Scanner) : Option Scanner :=
  if s.keyAllowed then
    let required := !s.inFlow && s.indent == s.mark.column
    s.dropKey.map (·.setKey (some ⟨s.tokens.length, s.mark, required⟩))
  else some s

/-- Opens a block at a column, unless the reader is inside brackets or in such a block already. The
token that opens it is put after the first `position` tokens. -/
def openBlock (s : Scanner) (column position : Nat) (t : Token) : Scanner :=
  if !s.inFlow && s.indent < column then
    { s with
      indent := column
      outer := s.indent :: s.outer
      tokens := s.tokens.insertIdx position t }
  else s

def closeBlocks (column : Int) : Int → List Int → List Token → Int × List Int × List Token
  | indent, [], tokens => (indent, [], tokens)
  | indent, next :: outer, tokens =>
    if column < indent then closeBlocks column next outer (tokens ++ [.blockEnd])
    else (indent, next :: outer, tokens)

/-- Closes the blocks that are indented more than a column, unless the reader is inside brackets. -/
def unwind (s : Scanner) (column : Int) : Scanner :=
  if s.inFlow then s
  else
    let (indent, outer, tokens) := closeBlocks column s.indent s.outer s.tokens
    { s with indent, outer, tokens }

/-! ## Names, tags and directives -/

def takeName (m : Mark) (cs : List Char) : Option (String × Mark × List Char) :=
  let name := cs.takeWhile isWordChar
  let rest := cs.dropWhile isWordChar
  let endsName (c : Char) : Bool := "?:,]%@`".toList.contains c || c == '\x7d'
  let ended := startsBlank rest || rest.head?.any endsName
  if name.isEmpty || !ended then none
  else some (String.ofList name, m.forward name.length, rest)

/-- Whether a character may stand in a tag; `verbatim` lets more through. -/
def isTagChar (verbatim : Bool) (c : Char) : Bool :=
  isWordChar c || ";/?:@&=+$.!~*'()%".toList.contains c ||
    (verbatim && (c == ',' || c == '[' || c == ']'))

/-- The text of a tag with its percent codes read, and how many characters it takes. Each code must
be part of a character in UTF-8. -/
def takeTagText (verbatim : Bool) (cs : List Char) : Option (String × Nat × List Char) :=
  let raw := cs.takeWhile (isTagChar verbatim)
  let rec bytes : List Char → Option (List UInt8)
    | [] => some []
    | '%' :: a :: b :: rest => do
      let hi ← Hex.value? a
      let lo ← Hex.value? b
      return Hex.byte hi lo :: (← bytes rest)
    | '%' :: _ => none
    | c :: rest => do return Utf8.encodeChar c ++ (← bytes rest)
  match (bytes raw).bind Utf8.toString? with
  | some text => some (text, raw.length, cs.dropWhile (isTagChar verbatim))
  | none => none

/-- A handle: `!`, or a word between two `!`. -/
def takeHandle (cs : List Char) : Option (List Char × List Char) :=
  match cs with
  | '!' :: rest =>
    let word := rest.takeWhile isWordChar
    match rest.dropWhile isWordChar with
    | '!' :: rest' => some ('!' :: word ++ ['!'], rest')
    | rest' => some ('!' :: word, rest')
  | _ => none

def takeTag (cs : List Char) : Option (String × String × Nat × List Char) :=
  match cs with
  | '!' :: '<' :: rest =>
    match takeTagText true rest with
    | some (text, n, '>' :: rest') => if n = 0 then none else some ("", text, n + 3, rest')
    | _ => none
  | _ =>
    match takeHandle cs with
    | none => none
    | some (handle, rest) =>
      if 2 ≤ handle.length ∧ handle.getLast? = some '!' then
        match takeTagText false rest with
        | some (suffix, n, rest') =>
          if n = 0 then none
          else some (String.ofList handle, suffix, handle.length + n, rest')
        | none => none
      else
        match takeTagText false rest with
        | some (suffix, n, rest') =>
          let suffix := String.ofList (handle.drop 1) ++ suffix
          if suffix = "" then some ("", "!", handle.length + n, rest')
          else some ("!", suffix, handle.length + n, rest')
        | none => none

/-- A number of a version: at most nine digits. -/
def takeVersionNumber (cs : List Char) : Option (Nat × List Char) :=
  let digits := cs.takeWhile Char.isDigit
  if digits.isEmpty ∨ 9 < digits.length then none
  else some (digits.foldl (fun n c => n * 10 + (c.toNat - 48)) 0, cs.dropWhile Char.isDigit)

def takeDirective (cs : List Char) : Option (Token × List Char) :=
  let name := String.ofList (cs.takeWhile isWordChar)
  let rest := cs.dropWhile isWordChar
  let after := rest.dropWhile isSpaceOrTab
  if !startsBlank rest then none
  else if name = "YAML" then do
    let (major, rest) ← takeVersionNumber after
    match rest with
    | '.' :: rest =>
      let (minor, rest) ← takeVersionNumber rest
      return (.versionDirective major minor, rest)
    | _ => none
  else if name = "TAG" then do
    let (handle, rest) ← takeHandle after
    guard (handle = ['!'] ∨ (2 ≤ handle.length ∧ handle.getLast? = some '!'))
    guard (!rest.isEmpty && rest.head?.any isSpaceOrTab)
    let (stem, n, rest) ← takeTagText true (rest.dropWhile isSpaceOrTab)
    guard (n ≠ 0 && startsBlank rest)
    return (.tagDirective (String.ofList handle) stem, rest)
  else none

/-! ## One token -/

def punctuate (s : Scanner) (t : Token) (n : Nat) (keyAllowed : Bool) : Scanner :=
  ({ s with keyAllowed }.skip n).emit t

/-- Reads a directive and the end of its line. Nothing but a comment follows it on its line. -/
def directive (s : Scanner) : Option Scanner := do
  let s ← (s.unwind (-1)).dropKey
  let (t, rest) ← takeDirective (s.rest.drop 1)
  let rest := rest.dropWhile isSpaceOrTab
  let rest := if rest.head? = some '#' then rest.dropWhile (fun c => !isBreak c) else rest
  guard (startsBreak rest)
  let s := ({ s with keyAllowed := false }.skip (s.rest.length - rest.length)).emit t
  return if rest.isEmpty then s else s.moveTo s.mark.newline (rest.drop 1)

def documentMark (s : Scanner) (t : Token) : Option Scanner := do
  let s ← (s.unwind (-1)).dropKey
  return s.punctuate t 3 false

def flowStart (s : Scanner) (t : Token) : Option Scanner := do
  let s ← s.saveKey
  return { s with keys := none :: s.keys }.punctuate t 1 true

def flowEnd (s : Scanner) (t : Token) : Option Scanner := do
  let s ← s.dropKey
  let keys := if s.inFlow then s.keys.drop 1 else s.keys
  return { s with keys }.punctuate t 1 false

/-- Reads the dash in front of an entry. Inside brackets it is left to the grammar to refuse it. -/
def entry (s : Scanner) : Option Scanner := do
  guard (s.inFlow || s.keyAllowed)
  let s := s.openBlock s.mark.column s.tokens.length .blockSequenceStart
  let s ← s.dropKey
  return s.punctuate .blockEntry 1 true

def explicitKey (s : Scanner) : Option Scanner := do
  guard (s.inFlow || s.keyAllowed)
  let s := s.openBlock s.mark.column s.tokens.length .blockMappingStart
  let s ← s.dropKey
  return s.punctuate .key 1 (!s.inFlow)

/-- Reads the colon in front of a value. If a key may have begun, it did. -/
def colon (s : Scanner) : Option Scanner :=
  match s.keys.head?.join with
  | some k =>
    let s := { s with tokens := s.tokens.insertIdx k.tokens .key }
    let s := (s.openBlock k.mark.column k.tokens .blockMappingStart).setKey none
    some (s.punctuate .value 1 false)
  | none => do
    guard (s.inFlow || s.keyAllowed)
    let s := s.openBlock s.mark.column s.tokens.length .blockMappingStart
    return s.punctuate .value 1 (!s.inFlow)

def name (s : Scanner) (t : String → Token) : Option Scanner := do
  let s ← s.saveKey
  let (text, mark, rest) ← takeName (s.mark.forward 1) (s.rest.drop 1)
  return ({ s with keyAllowed := false }.moveTo mark rest).emit (t text)

def tag (s : Scanner) : Option Scanner := do
  let s ← s.saveKey
  let (handle, suffix, n, rest) ← takeTag s.rest
  guard (startsBlank rest || (s.inFlow && rest.head? = some ','))
  return ({ s with keyAllowed := false }.skip n).emit (.tag handle suffix)

def block (s : Scanner) (folded : Bool) : Option Scanner := do
  let s ← s.dropKey
  let t ← takeBlock folded s.indent (s.mark.forward 1) (s.rest.drop 1)
  return ({ s with keyAllowed := true }.moveTo t.mark t.rest).emit
    (.scalar (String.ofList t.text) (if folded then .folded else .literal))

def quoted (s : Scanner) (take : Mark → Gathered → List Char → Option Taken) : Option Scanner := do
  let s ← s.saveKey
  let t ← take (s.mark.forward 1) .empty (s.rest.drop 1)
  return ({ s with keyAllowed := false }.moveTo t.mark t.rest).emit
    (.scalar (String.ofList t.text) .quoted)

/-- Reads a plain scalar. A key may begin after it if it reached beyond its line. -/
def plain (s : Scanner) : Option Scanner := do
  let s ← s.saveKey
  let (t, broken) ← takePlain s.inFlow (s.indent + 1) s.mark .empty s.rest
  return ({ s with keyAllowed := broken }.moveTo t.mark t.rest).emit
    (.scalar (String.ofList t.text) .plain)

def beginsPlain (flow : Bool) (c : Char) (after : List Char) : Bool :=
  if c == '-' then !after.isEmpty && !after.head?.any isSpaceOrTab
  else if c == '?' || c == ':' then !flow && !startsBlank after
  else !(isSpaceOrTab c || ",[]#&*!|>'\"%@`".toList.contains c || c == '\x7b' || c == '\x7d')

def token (s : Scanner) (c : Char) (after : List Char) : Option Scanner :=
  if s.mark.column = 0 ∧ c = '%' then s.directive
  else if s.mark.column = 0 ∧ startsMarker '-' s.rest then s.documentMark .documentStart
  else if s.mark.column = 0 ∧ startsMarker '.' s.rest then s.documentMark .documentEnd
  else if c = '[' then s.flowStart .flowSequenceStart
  else if c = '\x7b' then s.flowStart .flowMappingStart
  else if c = ']' then s.flowEnd .flowSequenceEnd
  else if c = '\x7d' then s.flowEnd .flowMappingEnd
  else if c = ',' then s.dropKey.map (·.punctuate .flowEntry 1 true)
  else if c = '-' ∧ startsBlank after then s.entry
  else if c = '?' ∧ (s.inFlow ∨ startsBlank after) then s.explicitKey
  else if c = ':' ∧ (s.inFlow ∨ startsBlank after) then s.colon
  else if c = '*' then s.name .alias
  else if c = '&' then s.name .anchor
  else if c = '!' then s.tag
  else if c = '|' ∧ !s.inFlow then s.block false
  else if c = '>' ∧ !s.inFlow then s.block true
  else if c = '\'' then s.quoted takeSingleQuoted
  else if c = '"' then s.quoted takeDoubleQuoted
  else if beginsPlain s.inFlow c after then s.plain
  else none

/-- Reads all tokens. Each takes at least one character. -/
def run : Nat → Scanner → Option (List Token)
  | 0, _ => none
  | fuel + 1, s => do
    let s ← s.skipBlanks.dropStaleKeys
    let s := s.unwind s.mark.column
    match s.rest with
    | [] => return (← (s.unwind (-1)).dropKey).tokens
    | c :: after => run fuel (← s.token c after)

end Scanner

def Token.ofText? (text : String) : Option (List Token) :=
  let cs := text.toList
  if cs.all isAllowed then
    let cs := unifyBreaks cs
    (Scanner.start cs).run (cs.length + 1)
  else none

end EventBroker.Yaml
