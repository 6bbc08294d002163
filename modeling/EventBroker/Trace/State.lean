/-! # Vendor state of a trace

A list of keys with values that tracing systems hand on to each other, written `key=value` with
commas between the members. One bad member spoils the whole list.
-/
set_option autoImplicit false

namespace EventBroker.Trace

abbrev State := List (String × String)

namespace State

/-- Cuts a text at each occurrence of a character. What follows the last occurrence is left out if
it is empty. -/
def splitTerminated (sep : Char) (cs : List Char) : List (List Char) :=
  let parts := split cs
  match parts.getLast? with
  | some [] => parts.dropLast
  | _ => parts
where
  split : List Char → List (List Char)
    | [] => [[]]
    | c :: rest =>
      if c = sep then [] :: split rest
      else
        match split rest with
        | first :: others => (c :: first) :: others
        | [] => [[c]]

def maxLength : Nat := 256

/-- The most characters that may follow the `@` of a key, and the `@` itself. -/
def maxVendorLength : Nat := 14

def isInitial (c : Char) : Bool := c.isLower || c.isDigit

def isKeyChar (c : Char) : Bool := isInitial c || c == '_' || c == '-' || c == '*' || c == '/'

/-- Whether the part of a key after its `@` is sound: it is short, begins like a key and has no
other `@`. -/
def isVendor (vendor : List Char) : Bool :=
  vendor.length < maxVendorLength && vendor.all isKeyChar && vendor.head?.all isInitial

/-- Whether a text may be a key. The empty text may. -/
def isKey (key : List Char) : Bool :=
  let tenant := key.takeWhile (· != '@')
  let rest := key.dropWhile (· != '@')
  key.length ≤ maxLength && tenant.all isKeyChar && key.head?.all isInitial &&
    match rest with
    | [] => true
    | _ :: vendor => isVendor vendor

def isValue (value : List Char) : Bool :=
  value.length ≤ maxLength && !value.contains ',' && !value.contains '='

/-- The key and the value of a member. Equals signs in front of the value do not count. -/
def readMember (cs : List Char) : Option (String × String) :=
  match cs.dropWhile (· != '=') with
  | [] => none
  | rest =>
    let key := cs.takeWhile (· != '=')
    let value := rest.dropWhile (· == '=')
    if isKey key && isValue value then some (String.ofList key, String.ofList value) else none

def parse? (text : String) : Option State := (splitTerminated ',' text.toList).mapM readMember

def toText (s : State) : String := ",".intercalate (s.map fun (key, value) => key ++ "=" ++ value)

end State

end EventBroker.Trace
