import EventBroker.Text.Unsigned

/-! # What can be wrong with JSON text

A fault is the reason why a text is not the JSON of a wanted shape: the text ends too early, breaks
the grammar, or holds something other than what is wanted. `Fault.message` has the wording.
-/
set_option autoImplicit false

namespace EventBroker.Json

inductive Found where
  | null
  | bool (b : Bool)
  | integer (n : Int)
  /-- A number with a fraction or exponent, or beyond the 64-bit integers; its text. -/
  | float (text : String)
  /-- A text, quoted for the message. -/
  | text (quoted : String)
  | sequence
  | map
  deriving DecidableEq, Repr

inductive Category where
  | eof
  | grammar
  | data
  deriving DecidableEq, Repr

inductive Fault where
  | eofValue
  | eofString
  | eofList
  | eofObject
  | expectedValue
  | expectedIdent
  | expectedListCommaOrEnd
  | expectedObjectCommaOrEnd
  | expectedColon
  | keyMustBeString
  | trailingComma
  | trailingCharacters
  | invalidNumber
  | numberOutOfRange
  | invalidEscape
  | unfinishedSurrogatePair
  | loneSurrogate
  | invalidUnicode
  | controlCharacter
  | invalidType (found : Found) (wanted : String)
  | invalidValue (found : Found) (wanted : String)
  | invalidLength (length : Nat) (record : String) (fields : Nat)
  | missingField (name : String)
  | duplicateField (name : String)
  deriving DecidableEq, Repr

def Found.describe : Found → String
  | .null => "null"
  | .bool b => "boolean `" ++ (if b then "true" else "false") ++ "`"
  | .integer n =>
    "integer `" ++ (if n < 0 then "-" else "") ++ Text.decimal n.natAbs ++ "`"
  | .float written => "floating point `" ++ written ++ "`"
  | .text quoted => "string " ++ quoted
  | .sequence => "sequence"
  | .map => "map"

namespace Fault

def category : Fault → Category
  | .eofValue | .eofString | .eofList | .eofObject => .eof
  | .invalidType _ _ | .invalidValue _ _ | .invalidLength _ _ _ | .missingField _
  | .duplicateField _ => .data
  | _ => .grammar

def message : Fault → String
  | .eofValue => "EOF while parsing a value"
  | .eofString => "EOF while parsing a string"
  | .eofList => "EOF while parsing a list"
  | .eofObject => "EOF while parsing an object"
  | .expectedValue => "expected value"
  | .expectedIdent => "expected ident"
  | .expectedListCommaOrEnd => "expected `,` or `]`"
  | .expectedObjectCommaOrEnd => "expected `,` or `\x7d`"
  | .expectedColon => "expected `:`"
  | .keyMustBeString => "key must be a string"
  | .trailingComma => "trailing comma"
  | .trailingCharacters => "trailing characters"
  | .invalidNumber => "invalid number"
  | .numberOutOfRange => "number out of range"
  | .invalidEscape => "invalid escape"
  | .unfinishedSurrogatePair => "unexpected end of hex escape"
  | .loneSurrogate => "lone leading surrogate in hex escape"
  | .invalidUnicode => "invalid unicode code point"
  | .controlCharacter => "control character (\\u0000-\\u001F) found while parsing a string"
  | .invalidType found wanted => "invalid type: " ++ found.describe ++ ", expected " ++ wanted
  | .invalidValue found wanted => "invalid value: " ++ found.describe ++ ", expected " ++ wanted
  | .invalidLength length record fields =>
    "invalid length " ++ Text.decimal length ++ ", expected struct " ++ record ++ " with "
      ++ Text.decimal fields ++ (if fields = 1 then " element" else " elements")
  | .missingField name => "missing field `" ++ name ++ "`"
  | .duplicateField name => "duplicate field `" ++ name ++ "`"

end Fault

end EventBroker.Json
