import EventBroker.Json.Document

/-! # Decoders

A decoder takes a value of a wanted shape out of a document, or says what is wrong and where. The
shape of a record is a `FieldList`: its fields in order, each with its names, its decoder and what
an absent one means. A record may be written as an object, its members in any order and unknown ones
passed over, or as an array of its fields in order.
-/
set_option autoImplicit false

namespace EventBroker.Json

inductive Segment where
  | name (s : String)
  | index (i : Nat)
  /-- The step to a member whose name is not known, since it cannot be read. -/
  | unknown
  deriving DecidableEq, Repr

/-- What is wrong, and the way from the root to the value that it is wrong with. -/
structure DecodeError where
  path : List Segment
  fault : Fault
  deriving DecidableEq, Repr

namespace DecodeError

/-- The same error seen from the value that contains the part. -/
def under (s : Segment) (e : DecodeError) : DecodeError := { e with path := s :: e.path }

/-- The text of a path: names joined by dots, indices in brackets, a question mark for what is not
known. -/
def pathText : List Segment → String
  | [] => ""
  | .name s :: rest => s ++ pathTail rest
  | .index i :: rest => "[" ++ Text.decimal i ++ "]" ++ pathTail rest
  | .unknown :: rest => "?" ++ pathTail rest
where
  pathTail : List Segment → String
    | [] => ""
    | .name s :: rest => "." ++ s ++ pathTail rest
    | .index i :: rest => "[" ++ Text.decimal i ++ "]" ++ pathTail rest
    | .unknown :: rest => ".?" ++ pathTail rest

/-- The message with its path in front, unless nothing of the path is known. -/
def message (e : DecodeError) : String :=
  if e.path.all (· == .unknown) then e.fault.message else pathText e.path ++ ": " ++ e.fault.message

end DecodeError

abbrev Decoded (α : Type) := Except DecodeError α

abbrev Decoder (α : Type) := Document → Decoded α

def failHere {α : Type} (f : Fault) : Decoded α := .error ⟨[], f⟩

def within {α : Type} (s : Segment) (d : Decoded α) : Decoded α := d.mapError (·.under s)

namespace Decode

def text : Decoder String
  | .string (.ok s) => .ok s
  | d => failHere (d.mismatch "a string")

def flag : Decoder Bool
  | .bool b => .ok b
  | d => failHere (d.mismatch "a boolean")

/-- A natural number of at most `bound`; `wanted` names its type in messages. -/
def unsigned (wanted : String) (bound : Nat) : Decoder Nat
  | .number (.ok (.integer n)) =>
    if 0 ≤ n ∧ n.toNat ≤ bound then .ok n.toNat
    else failHere (.invalidValue (.integer n) wanted)
  | d => failHere (d.mismatch wanted)

def word32 : Decoder Nat := unsigned "u32" 0xFFFFFFFF

def word64 : Decoder Nat := unsigned "u64" 0xFFFFFFFFFFFFFFFF

/-- A number of things; it has the range of a 64-bit word and a name of its own in messages. -/
def count : Decoder Nat := unsigned "usize" 0xFFFFFFFFFFFFFFFF

def optional {α : Type} (decode : Decoder α) : Decoder (Option α)
  | .null => .ok none
  | d => (decode d).map some

def items {α : Type} (decode : Decoder α) : Nat → List Document → ItemsEnd → Decoded (List α)
  | _, [], ending =>
    match ending.whenAsked with
    | none => .ok []
    | some f => failHere f
  | i, d :: rest, ending =>
    match within (.index i) (decode d) with
    | .error e => .error e
    | .ok v => (items decode (i + 1) rest ending).map (v :: ·)

def list {α : Type} (decode : Decoder α) : Decoder (List α)
  | .array ds ending => items decode 0 ds ending
  | d => failHere (d.mismatch "a sequence")

end Decode

structure Field (α : Type) where
  /-- The name in messages. -/
  name : String
  aliases : List String
  decode : Decoder α
  /-- What an object without the field means; none if the field must be there. -/
  absent : Option α
  /-- What an array too short for the field means; none if the field must be there. -/
  absentInArray : Option α

namespace Field

variable {α : Type}

def required (name : String) (decode : Decoder α) : Field α := ⟨name, [], decode, none, none⟩

def withDefault (name : String) (decode : Decoder α) (default : α) : Field α :=
  ⟨name, [], decode, some default, some default⟩

def nullable (name : String) (decode : Decoder α) : Field (Option α) :=
  ⟨name, [], Decode.optional decode, some none, none⟩

def orNamed (f : Field α) (name : String) : Field α := { f with aliases := name :: f.aliases }

def answersTo (f : Field α) (name : String) : Bool := name == f.name || f.aliases.contains name

end Field

/-- The fields of a record in order; the record's values are nested pairs. -/
inductive FieldList : Type → Type 1 where
  | nil : FieldList Unit
  | cons {α β : Type} (field : Field α) (rest : FieldList β) : FieldList (α × β)

namespace FieldList

def Slots : {α : Type} → FieldList α → Type
  | _, .nil => Unit
  | _, @cons α _ _ rest => Option α × rest.Slots

def noSlots : {α : Type} → (fs : FieldList α) → fs.Slots
  | _, .nil => ()
  | _, .cons _ rest => (none, rest.noSlots)

def count : {α : Type} → FieldList α → Nat
  | _, .nil => 0
  | _, .cons _ rest => rest.count + 1

/-- Takes in a member: none if its name is unknown. A second member for a field is an error before
its value is looked at. -/
def accept : {α : Type} → (fs : FieldList α) → String → Read Document → fs.Slots →
    Decoded (Option fs.Slots)
  | _, .nil, _, _, _ => .ok none
  | _, @cons α _ field rest, name, value, found =>
    let slot : Option α := found.1
    let slots : rest.Slots := found.2
    if field.answersTo name then
      if slot.isSome then failHere (.duplicateField field.name)
      else
        match value with
        | .error f => failHere f
        | .ok d => (within (.name name) (field.decode d)).map fun v => some (some v, slots)
    else (rest.accept name value slots).map (Option.map ((slot, ·)))

def finish : {α : Type} → (fs : FieldList α) → fs.Slots → Decoded α
  | _, .nil, _ => .ok ()
  | _, @cons α _ field rest, found =>
    let slot : Option α := found.1
    let slots : rest.Slots := found.2
    match slot.or field.absent with
    | some v => (rest.finish slots).map ((v, ·))
    | none => failHere (.missingField field.name)

def collect {α : Type} (fs : FieldList α) :
    List Member → MembersEnd → fs.Slots → Decoded fs.Slots
  | [], ending, slots =>
    match ending with
    | .colonMissing (.ok name) f =>
      match fs.accept name (.error f) slots with
      | .error e => .error e
      | .ok _ => failHere f
    | _ =>
      match ending.whenAsked with
      | none => .ok slots
      | some f => within .unknown (failHere f)
  | (.error f, _) :: _, _, _ => within .unknown (failHere f)
  | (.ok name, d) :: rest, ending, slots =>
    match fs.accept name (.ok d) slots with
    | .error e => .error e
    | .ok (some slots') => fs.collect rest ending slots'
    | .ok none =>
      match d.whenPassed with
      | some f => within (.name name) (failHere f)
      | none => fs.collect rest ending slots

def ofMembers {α : Type} (fs : FieldList α) (members : List Member) (ending : MembersEnd) :
    Decoded α :=
  match fs.collect members ending fs.noSlots with
  | .error e => .error e
  | .ok slots => fs.finish slots

/-- The record from its items, the first of them at index `i`; `short` is the fault of an array that
ends before item `i`. -/
def ofItems : {α : Type} → (fs : FieldList α) → (short : Nat → Fault) → Nat → List Document →
    ItemsEnd → Decoded α
  | _, .nil, _, _, ds, ending =>
    match ds with
    | [] =>
      match ending.whenDone with
      | none => .ok ()
      | some f => failHere f
    | _ :: _ => failHere .trailingCharacters
  | _, .cons field rest, short, i, ds, ending =>
    match ds with
    | [] =>
      match ending.whenAsked with
      | some f => failHere f
      | none =>
        match field.absentInArray with
        | some v => (rest.ofItems short (i + 1) [] ending).map ((v, ·))
        | none => failHere (short i)
    | d :: ds' =>
      match within (.index i) (field.decode d) with
      | .error e => .error e
      | .ok v => (rest.ofItems short (i + 1) ds' ending).map ((v, ·))

def decode {α : Type} (fs : FieldList α) (record : String) : Decoder α
  | .array ds ending => fs.ofItems (fun n => .invalidLength n record fs.count) 0 ds ending
  | .object members ending => fs.ofMembers members ending
  | d => failHere (d.mismatch ("struct " ++ record))

end FieldList

end EventBroker.Json
