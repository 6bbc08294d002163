import EventBroker.Json.Basic
import EventBroker.Json.Fault
import EventBroker.Text.Quoted

/-! # JSON documents with their faults in place

A `Document` is what a reader can say about a text: the values it holds and, where the text cannot
be followed any further, what is wrong there. Nothing is refused while reading. Whoever takes values
out of a document meets the faults in the order of the text, so the first thing that is wrong for
the wanted shape, in the grammar or in the data, is the one that is reported.

A value that is passed over is checked less strictly than one that is taken, so a fault may come in
two forms.
-/
set_option autoImplicit false

namespace EventBroker.Json

/-- Reading something gives it or the fault that shows when it is taken. -/
abbrev Read (α : Type) := Except Fault α

/-- A number as taken: an integer of 64 bits, signed or not, or the text of a rounded number. -/
inductive Number where
  | integer (n : Int)
  | float (text : String)
  deriving DecidableEq, Repr

/-- A place where the text cannot be followed: the fault if the value is taken, and if it is passed
over. -/
structure Break where
  taken : Fault
  passed : Fault
  deriving DecidableEq, Repr

inductive ItemsEnd where
  | closed
  /-- The text ends after an item, or after the opening bracket. -/
  | eof
  /-- The text ends after a comma. -/
  | eofAfterComma
  | closedAfterComma
  /-- Neither a comma nor the closing bracket follows an item. -/
  | unexpected
  deriving DecidableEq, Repr

inductive MembersEnd where
  | closed
  | eof
  | eofAfterComma
  | closedAfterComma
  | unexpected
  | unquotedName
  /-- A name cannot be followed to its end. -/
  | brokenName (b : Break)
  | colonMissing (name : Read String) (f : Fault)

inductive Document where
  | null
  | bool (b : Bool)
  | number (n : Read Number)
  | string (s : Read String)
  | array (items : List Document) (ending : ItemsEnd)
  | object (members : List (Except Fault String × Document)) (ending : MembersEnd)
  | broken (b : Break)
  deriving Inhabited

abbrev Member := Except Fault String × Document

namespace ItemsEnd

/-- The fault met by someone who asks for one more item; none if there just is none. -/
def whenAsked : ItemsEnd → Option Fault
  | .closed => none
  | .eof => some .eofList
  | .eofAfterComma => some .eofValue
  | .closedAfterComma => some .trailingComma
  | .unexpected => some .expectedListCommaOrEnd

/-- The fault met by someone who wants the array to end here. -/
def whenDone : ItemsEnd → Option Fault
  | .closed => none
  | .eof => some .eofList
  | .eofAfterComma => some .trailingCharacters
  | .closedAfterComma => some .trailingComma
  | .unexpected => some .trailingCharacters

def whenPassed : ItemsEnd → Option Fault
  | .closed => none
  | .eof => some .eofList
  | .eofAfterComma => some .eofValue
  | .closedAfterComma => some .expectedValue
  | .unexpected => some .expectedListCommaOrEnd

end ItemsEnd

namespace MembersEnd

/-- The fault met by someone who asks for the name of one more member; none if there just is none. A
name without a colon is met as a name first. -/
def whenAsked : MembersEnd → Option Fault
  | .closed => none
  | .eof => some .eofObject
  | .eofAfterComma => some .eofValue
  | .closedAfterComma => some .trailingComma
  | .unexpected => some .expectedObjectCommaOrEnd
  | .unquotedName => some .keyMustBeString
  | .brokenName b => some b.taken
  | .colonMissing (.error f) _ => some f
  | .colonMissing (.ok _) f => some f

def whenPassed : MembersEnd → Option Fault
  | .closed => none
  | .eof => some .eofObject
  | .eofAfterComma => some .eofObject
  | .closedAfterComma => some .keyMustBeString
  | .unexpected => some .expectedObjectCommaOrEnd
  | .unquotedName => some .keyMustBeString
  | .brokenName b => some b.passed
  | .colonMissing _ f => some f

end MembersEnd

namespace Document

mutual

/-- The fault met when a value is passed over. Values that were read to their end have none. -/
def whenPassed : Document → Option Fault
  | .null | .bool _ | .number _ | .string _ => none
  | .array items ending => (itemsWhenPassed items).or ending.whenPassed
  | .object members ending => (membersWhenPassed members).or ending.whenPassed
  | .broken b => some b.passed

def itemsWhenPassed : List Document → Option Fault
  | [] => none
  | d :: rest => (whenPassed d).or (itemsWhenPassed rest)

def membersWhenPassed : List (Except Fault String × Document) → Option Fault
  | [] => none
  | (_, d) :: rest => (whenPassed d).or (membersWhenPassed rest)

end

def mismatch (wanted : String) : Document → Fault
  | .null => .invalidType .null wanted
  | .bool b => .invalidType (.bool b) wanted
  | .number (.ok (.integer n)) => .invalidType (.integer n) wanted
  | .number (.ok (.float text)) => .invalidType (.float text) wanted
  | .number (.error f) => f
  | .string (.ok s) => .invalidType (.text (Text.quote s)) wanted
  | .string (.error f) => f
  | .array _ _ => .invalidType .sequence wanted
  | .object _ _ => .invalidType .map wanted
  | .broken b => b.taken

end Document

mutual

def toDocument : Json → Document
  | .null => .null
  | .bool b => .bool b
  | .number n => .number (.ok (.integer n))
  | .string s => .string (.ok s)
  | .array items => .array (toDocuments items) .closed
  | .object members => .object (toMembers members) .closed

def toDocuments : List Json → List Document
  | [] => []
  | v :: rest => toDocument v :: toDocuments rest

def toMembers : List (String × Json) → List (Except Fault String × Document)
  | [] => []
  | (key, v) :: rest => (.ok key, toDocument v) :: toMembers rest

end

end EventBroker.Json
