import EventBroker.Text.Hex
import EventBroker.Text.Unsigned

/-! # JSON values

A value keeps the order of its object members, so that what is printed has the fields in the order
in which they were written down. Numbers are integers: no answer of this library has any other.
-/
set_option autoImplicit false

namespace EventBroker

/-- A JSON value; members are in order. -/
inductive Json where
  | null
  | bool (b : Bool)
  | number (n : Int)
  | string (s : String)
  | array (items : List Json)
  | object (members : List (String × Json))
  deriving Inhabited

namespace Json

def nat (n : Nat) : Json := .number n

def optional (s : Option String) : Json := (s.map Json.string).getD .null

def member? (name : String) : List (String × Json) → Option Json
  | [] => none
  | (key, value) :: rest => if key = name then some value else member? name rest

/-- The characters that stand for one character inside a quoted text: quotes, backslashes and
control characters have escapes. -/
def escapeChar (c : Char) : List Char :=
  if c = '"' then ['\\', '"']
  else if c = '\\' then ['\\', '\\']
  else if c = '\n' then ['\\', 'n']
  else if c = '\r' then ['\\', 'r']
  else if c = '\t' then ['\\', 't']
  else if c.toNat = 8 then ['\\', 'b']
  else if c.toNat = 12 then ['\\', 'f']
  else if c.toNat < 32 then ['\\', 'u', '0', '0'] ++ Hex.padded 2 c.toNat
  else [c]

def quote (s : String) : String := String.ofList ('"' :: s.toList.flatMap escapeChar ++ ['"'])

def integerText (n : Int) : String :=
  if n < 0 then "-" ++ Text.decimal n.natAbs else Text.decimal n.natAbs

mutual

def render : Json → String
  | .null => "null"
  | .bool b => if b then "true" else "false"
  | .number n => integerText n
  | .string s => quote s
  | .array items => "[" ++ String.intercalate "," (renderItems items) ++ "]"
  | .object members => "\x7b" ++ String.intercalate "," (renderMembers members) ++ "\x7d"

def renderItems : List Json → List String
  | [] => []
  | v :: rest => render v :: renderItems rest

def renderMembers : List (String × Json) → List String
  | [] => []
  | (key, v) :: rest => (quote key ++ ":" ++ render v) :: renderMembers rest

end

/-- Reads an array index: digits without a leading zero. -/
def index? (token : String) : Option Nat :=
  match token.toList with
  | '+' :: _ => none
  | ['0'] => some 0
  | '0' :: _ => none
  | cs => Text.readUnsigned 10 word64Bound cs
where
  word64Bound : Nat := 0xFFFFFFFFFFFFFFFF

def step? (token : String) : Json → Option Json
  | .object members => member? token members
  | .array items => (index? token).bind (items[·]?)
  | _ => none

/-- The name that a pointer token writes: `~1` is a slash and `~0` a tilde. -/
def unescapeToken : List Char → List Char
  | '~' :: '1' :: rest => '/' :: unescapeToken rest
  | '~' :: '0' :: rest => '~' :: unescapeToken rest
  | c :: rest => c :: unescapeToken rest
  | [] => []

def splitAt (sep : Char) : List Char → List (List Char)
  | [] => [[]]
  | c :: rest =>
    if c = sep then [] :: splitAt sep rest
    else
      match splitAt sep rest with
      | first :: others => (c :: first) :: others
      | [] => [[c]]

/-- The part of a value that a pointer selects: nothing but slash-separated steps from the root. -/
def pointer? (v : Json) (pointer : String) : Option Json :=
  match pointer.toList with
  | [] => some v
  | '/' :: rest =>
    (splitAt '/' rest).foldl
      (fun acc token => acc.bind (step? (String.ofList (unescapeToken token)))) (some v)
  | _ => none

def keys? : Json → Option (List String)
  | .object members => some (members.map (·.1))
  | _ => none

end Json

end EventBroker
