/-! # Media types

A media type is a type, a subtype and parameters. The part of the subtype after its last `+` is its
suffix. `MediaType.parse?` reads the text of a header; case does not matter.
-/
set_option autoImplicit false

namespace EventBroker.Http

structure MediaType where
  type : String
  subtype : String
  suffix : Option String
  deriving DecidableEq, Repr

namespace MediaType

def isTokenChar (c : Char) : Bool :=
  c.isAlphanum || "!#$%&'*+-.^_`|~".toList.contains c

def isQuotedChar (c : Char) : Bool := 31 < c.toNat && c.toNat != 127

/-- The text after the quote that closes a value. The value has at least one character, and its
first one may be a quote itself. -/
def closeQuote? : List Char → Option (List Char)
  | [] => none
  | c :: rest =>
    if isQuotedChar c then
      match rest.dropWhile fun c => isQuotedChar c && c != '"' with
      | '"' :: after => some after
      | _ => none
    else none

/-- Whether a text is a list of parameters, each after blanks, with semicolons between them. A
parameter takes at least one character, so the length of the text bounds their number. -/
def areParameters : Nat → List Char → Bool
  | 0, cs => cs.isEmpty
  | fuel + 1, cs =>
    match cs.dropWhile (· == ' ') with
    | [] => true
    | cs =>
      !(cs.takeWhile isTokenChar).isEmpty &&
        match cs.dropWhile isTokenChar with
        | '=' :: '"' :: value =>
          match (closeQuote? value).map (·.dropWhile (· == ' ')) with
          | some [] => true
          | some (';' :: rest) => areParameters fuel rest
          | _ => false
        | '=' :: value =>
          match value.dropWhile isTokenChar with
          | [] => true
          | ';' :: rest => !(value.takeWhile isTokenChar).isEmpty && areParameters fuel rest
          | _ => false
        | _ => false

/-- What stands after the last `+` that is not the first character. -/
def suffixOf (subtype : List Char) : Option (List Char) :=
  match subtype with
  | [] => none
  | _ :: rest =>
    if rest.contains '+' then some ((rest.reverse.takeWhile (· != '+')).reverse) else none

def parse? (text : String) : Option MediaType :=
  let cs := text.toList
  let type := cs.takeWhile isTokenChar
  match cs.dropWhile isTokenChar with
  | '/' :: rest =>
    let subtype := rest.takeWhile isTokenChar
    let result : MediaType :=
      ⟨(String.ofList type).toLower, (String.ofList subtype).toLower,
        (suffixOf subtype).map fun s => (String.ofList s).toLower⟩
    if type.isEmpty then none
    else
      match rest.dropWhile isTokenChar with
      | [] => some result
      | ';' :: parameters =>
        if !subtype.isEmpty && areParameters parameters.length parameters then some result
        else none
      | _ => none
  | _ => none

def isJson (t : MediaType) : Bool :=
  t.type == "application" && (nameOf t == "json" || t.suffix == some "json")
where
  nameOf (t : MediaType) : String :=
    match t.suffix with
    | some s => String.ofList (t.subtype.toList.take (t.subtype.length - s.length - 1))
    | none => t.subtype

end MediaType

end EventBroker.Http
