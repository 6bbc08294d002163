import EventBroker.Json.Decode
import EventBroker.Json.Numeral
import EventBroker.Text.Utf8

/-! # Reading JSON text

`readValue` turns bytes into a document and the bytes after it. It never fails: where the text
cannot be followed, the document has a break. Each value takes at least one byte and two calls, so
twice the number of bytes bounds the depth of the calls.
-/
set_option autoImplicit false

namespace EventBroker.Json

def skipBlanks : List UInt8 → List UInt8
  | b :: rest => if b = 0x20 ∨ b = 0x0A ∨ b = 0x09 ∨ b = 0x0D then skipBlanks rest else b :: rest
  | [] => []

/-- The rest of a literal such as `null`, after its first letter. -/
def readLiteral : List UInt8 → List UInt8 → Except Fault (List UInt8)
  | [], bs => .ok bs
  | _ :: _, [] => .error .eofValue
  | w :: wanted, b :: rest => if b = w then readLiteral wanted rest else .error .expectedIdent

/-! ## Numbers -/

def takeDigits : List UInt8 → List Nat × List UInt8
  | b :: rest =>
    if 0x30 ≤ b ∧ b ≤ 0x39 then
      let (ds, rest') := takeDigits rest
      ((b.toNat - 0x30) :: ds, rest')
    else ([], b :: rest)
  | [] => ([], [])

/-- A number that breaks off: a taken one distinguishes the end of the text. -/
def brokenNumber (bs : List UInt8) : Document :=
  .broken ⟨if bs.isEmpty then .eofValue else .invalidNumber, .invalidNumber⟩

def readExponent (n : Numeral) (bs : List UInt8) : Document × List UInt8 :=
  let (down, digitsAt) := match bs with
    | 0x2B :: rest => (false, rest)
    | 0x2D :: rest => (true, rest)
    | _ => (false, bs)
  match takeDigits digitsAt with
  | ([], rest) => (brokenNumber rest, [])
  | (ds, rest) => (.number { n with exponent := some (down, ds) }.value, rest)

def readAfterFraction (n : Numeral) (bs : List UInt8) : Document × List UInt8 :=
  match bs with
  | 0x65 :: rest => readExponent n rest
  | 0x45 :: rest => readExponent n rest
  | _ => (.number n.value, bs)

def readNumber (negative : Bool) (bs : List UInt8) : Document × List UInt8 :=
  match takeDigits bs with
  | ([], rest) => (brokenNumber rest, [])
  | (0 :: _ :: _, _) => (.broken ⟨.invalidNumber, .invalidNumber⟩, [])
  | (ds, rest) =>
    let n : Numeral := ⟨negative, ds, none, none⟩
    match rest with
    | 0x2E :: rest' =>
      match takeDigits rest' with
      | ([], rest'') => (brokenNumber rest'', [])
      | (fs, rest'') => readAfterFraction { n with fraction := some fs } rest''
    | _ => readAfterFraction n rest

/-! ## Texts -/

/-- A piece of a quoted text: a byte, or a 16-bit unit written as an escape. -/
inductive Piece where
  | byte (b : UInt8)
  | unit (n : Nat)
  deriving DecidableEq, Repr

inductive PiecesEnd where
  | closed
  | eof
  | control
  | unknownEscape
  /-- A unit escape without four hexadecimal digits. -/
  | badUnit
  deriving DecidableEq, Repr

def PiecesEnd.fault : PiecesEnd → Fault
  | .closed | .eof => .eofString
  | .control => .controlCharacter
  | .unknownEscape | .badUnit => .invalidEscape

def escapeByte? (b : UInt8) : Option UInt8 :=
  if b = 0x22 ∨ b = 0x5C ∨ b = 0x2F then some b
  else if b = 0x62 then some 8
  else if b = 0x66 then some 12
  else if b = 0x6E then some 10
  else if b = 0x72 then some 13
  else if b = 0x74 then some 9
  else none

def unit? (a b c d : UInt8) : Option Nat := do
  let value (x : UInt8) := (Hex.value? (Char.ofNat x.toNat)).map (·.val)
  return ((← value a) * 16 + (← value b)) * 256 + ((← value c) * 16 + (← value d))

/-- The pieces up to the closing quote, latest first, how they end, and the bytes after the quote.
-/
def readPieces : List Piece → List UInt8 → List Piece × PiecesEnd × List UInt8
  | acc, [] => (acc, .eof, [])
  | acc, b :: rest =>
    if b = 0x22 then (acc, .closed, rest)
    else if b = 0x5C then
      match rest with
      | [] => (acc, .eof, [])
      | e :: rest' =>
        if e = 0x75 then
          match rest' with
          | a :: b' :: c :: d :: rest'' =>
            match unit? a b' c d with
            | some n => readPieces (.unit n :: acc) rest''
            | none => (acc, .badUnit, [])
          | _ => (acc, .eof, [])
        else
          match escapeByte? e with
          | some x => readPieces (.byte x :: acc) rest'
          | none => (acc, .unknownEscape, [])
    else if b < 0x20 then (acc, .control, [])
    else readPieces (.byte b :: acc) rest
  termination_by _ bs => bs.length

/-- Whether a unit is the first half of a pair, or the second. -/
def isLeadingUnit (n : Nat) : Bool := 0xD800 ≤ n && n ≤ 0xDBFF

def isTrailingUnit (n : Nat) : Bool := 0xDC00 ≤ n && n ≤ 0xDFFF

/-- The bytes that the pieces of a taken text write: units outside the surrogates stand for their
character, and a leading unit needs the trailing one right after it. -/
def piecesBytes (ending : PiecesEnd) : List Piece → Except Fault (List UInt8)
  | [] => if ending = .closed then .ok [] else .error ending.fault
  | .byte b :: rest => (piecesBytes ending rest).map (b :: ·)
  | .unit n :: rest =>
    if isTrailingUnit n then .error .loneSurrogate
    else if isLeadingUnit n then
      match rest with
      | .unit m :: rest' =>
        if isTrailingUnit m then
          (piecesBytes ending rest').map
            (Utf8.encodeChar (Char.ofNat (0x10000 + (n - 0xD800) * 1024 + (m - 0xDC00))) ++ ·)
        else .error .loneSurrogate
      | .byte _ :: _ => .error .unfinishedSurrogatePair
      | [] =>
        match ending with
        | .eof => .error .eofString
        | .badUnit => .error .invalidEscape
        | _ => .error .unfinishedSurrogatePair
    else (piecesBytes ending rest).map (Utf8.encodeChar (Char.ofNat n) ++ ·)

def piecesText (pieces : List Piece) (ending : PiecesEnd) : Read String :=
  match piecesBytes ending pieces with
  | .error f => .error f
  | .ok bs =>
    match Utf8.toString? bs with
    | some s => .ok s
    | none => .error .invalidUnicode

/-- A quoted text after its opening quote: the text as taken, whether it closes, and the rest. A
text that does not close has a break. -/
def readText (bs : List UInt8) : Except Break (Read String × List UInt8) :=
  let (acc, ending, rest) := readPieces [] bs
  let taken := piecesText acc.reverse ending
  if ending = .closed then .ok (taken, rest)
  else
    .error ⟨match taken with
      | .error f => f
      | .ok _ => ending.fault, ending.fault⟩

/-! ## Values -/

mutual

/-- The value at the front of a text, with a bound on the depth of the calls. -/
def readValue : Nat → List UInt8 → Document × List UInt8
  | 0, _ => (.broken ⟨.eofValue, .eofValue⟩, [])
  | fuel + 1, bs =>
    let literal (d : Document) (letters rest : List UInt8) : Document × List UInt8 :=
      match readLiteral letters rest with
      | .ok rest' => (d, rest')
      | .error f => (.broken ⟨f, f⟩, [])
    match skipBlanks bs with
    | [] => (.broken ⟨.eofValue, .eofValue⟩, [])
    | b :: rest =>
      if b = 0x6E then literal .null [0x75, 0x6C, 0x6C] rest
      else if b = 0x74 then literal (.bool true) [0x72, 0x75, 0x65] rest
      else if b = 0x66 then literal (.bool false) [0x61, 0x6C, 0x73, 0x65] rest
      else if b = 0x2D then readNumber true rest
      else if 0x30 ≤ b ∧ b ≤ 0x39 then readNumber false (b :: rest)
      else if b = 0x22 then
        match readText rest with
        | .ok (s, rest') => (.string s, rest')
        | .error br => (.broken br, [])
      else if b = 0x5B then
        match skipBlanks rest with
        | [] => (.array [] .eof, [])
        | c :: rest' =>
          if c = 0x5D then (.array [] .closed, rest') else readItems fuel [] (c :: rest')
      else if b = 0x7B then
        match skipBlanks rest with
        | [] => (.object [] .eof, [])
        | c :: rest' =>
          if c = 0x7D then (.object [] .closed, rest') else readMembers fuel [] (c :: rest')
      else (.broken ⟨.expectedValue, .expectedValue⟩, [])

def readItems : Nat → List Document → List UInt8 → Document × List UInt8
  | 0, acc, _ => (.array acc.reverse .eof, [])
  | fuel + 1, acc, bs =>
    let (d, rest) := readValue fuel bs
    let acc := d :: acc
    match skipBlanks rest with
    | [] => (.array acc.reverse .eof, [])
    | b :: rest' =>
      if b = 0x5D then (.array acc.reverse .closed, rest')
      else if b = 0x2C then
        match skipBlanks rest' with
        | [] => (.array acc.reverse .eofAfterComma, [])
        | c :: rest'' =>
          if c = 0x5D then (.array acc.reverse .closedAfterComma, [])
          else readItems fuel acc (c :: rest'')
      else (.array acc.reverse .unexpected, [])

def readMembers : Nat → List (Except Fault String × Document) → List UInt8 →
    Document × List UInt8
  | 0, acc, _ => (.object acc.reverse .eof, [])
  | fuel + 1, acc, bs =>
    match bs with
    | 0x22 :: rest =>
      match readText rest with
      | .error br => (.object acc.reverse (.brokenName br), [])
      | .ok (name, rest') =>
        match skipBlanks rest' with
        | 0x3A :: rest'' =>
          let (d, rest) := readValue fuel rest''
          let acc := (name, d) :: acc
          match skipBlanks rest with
          | [] => (.object acc.reverse .eof, [])
          | b :: rest' =>
            if b = 0x7D then (.object acc.reverse .closed, rest')
            else if b = 0x2C then
              match skipBlanks rest' with
              | [] => (.object acc.reverse .eofAfterComma, [])
              | c :: rest'' =>
                if c = 0x7D then (.object acc.reverse .closedAfterComma, [])
                else readMembers fuel acc (c :: rest'')
            else (.object acc.reverse .unexpected, [])
        | [] => (.object acc.reverse (.colonMissing name .eofObject), [])
        | _ => (.object acc.reverse (.colonMissing name .expectedColon), [])
    | _ => (.object acc.reverse .unquotedName, [])

end

def readDocument (bs : List UInt8) : Document × List UInt8 := readValue (2 * bs.length + 2) bs

/-- Takes a value from the front of a text; what follows it is not looked at. -/
def decodeFront {α : Type} (decode : Decoder α) (bs : List UInt8) : Decoded α :=
  decode (readDocument bs).1

/-- Takes a value from a text that holds nothing but blanks after it. -/
def decodeWhole {α : Type} (decode : Decoder α) (bs : List UInt8) : Decoded α :=
  match readDocument bs with
  | (d, rest) =>
    match decode d with
    | .error e => .error e
    | .ok v => if (skipBlanks rest).isEmpty then .ok v else failHere .trailingCharacters

end EventBroker.Json
