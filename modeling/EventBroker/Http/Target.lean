import EventBroker.Text.Utf8

/-! # Request targets

The part of a request line that says what is asked for: a path with an optional query, a whole URI,
an authority, or a lone `*`. Only the path matters here. `pathOf?` gives it, or none for a text that
is no target.
-/
set_option autoImplicit false

namespace EventBroker.Http

def maxTargetBytes : Nat := 65534

/-- Whether a character may stand in a path. Some that should be percent-coded are let through. -/
def isPathChar (c : Char) : Bool :=
  let n := c.toNat
  n == 0x21 || n == 0x22 || (0x24 ≤ n && n ≤ 0x3B) || n == 0x3D || (0x40 ≤ n && n ≤ 0x5F) ||
    (0x61 ≤ n && n != 0x7F)

def isQueryChar (c : Char) : Bool :=
  let n := c.toNat
  n == 0x21 || (0x24 ≤ n && n ≤ 0x3B) || n == 0x3D || (0x3F ≤ n && n != 0x7F)

/-- The path in front of a query or a fragment, if all is well formed; an empty path is a slash. -/
def pathAndQuery? (cs : List Char) : Option String :=
  let path := cs.takeWhile isInPath
  let rest := cs.dropWhile isInPath
  let fine := match rest with
    | [] => true
    | '#' :: _ => true
    | '?' :: query =>
      match query.dropWhile (fun c => isQueryChar c) with
      | [] => true
      | c :: _ => c == '#'
    | _ => false
  if fine then some (if path.isEmpty then "/" else String.ofList path) else none
where
  isInPath (c : Char) : Bool := c != '?' && isPathChar c

/-! ## Authorities -/

def isAuthorityChar (c : Char) : Bool :=
  c.isAlphanum || "!$&'()*+,-.:;=@[]_~".toList.contains c

structure AuthorityScan where
  colons : Nat
  opened : Bool
  closed : Bool
  percent : Bool
  /-- Whether the last character was an `@`. -/
  atLast : Bool

/-- Takes one more character of an authority, or refuses it. Colons and percent signs in front of an
`@` or inside brackets do not count. -/
def AuthorityScan.step (s : AuthorityScan) (c : Char) : Option AuthorityScan :=
  let s := { s with atLast := false }
  if c = ':' then if 8 ≤ s.colons then none else some { s with colons := s.colons + 1 }
  else if c = '[' then if s.percent || s.opened then none else some { s with opened := true }
  else if c = ']' then
    if !s.opened || s.closed then none
    else some { s with closed := true, colons := 0, percent := false }
  else if c = '@' then some { s with colons := 0, percent := false, atLast := true }
  else if c = '%' then some { s with percent := true }
  else if isAuthorityChar c then some s
  else none

def AuthorityScan.isFine (s : AuthorityScan) : Bool :=
  s.opened == s.closed && s.colons ≤ 1 && !s.atLast && !s.percent

def endsAuthority (c : Char) : Bool := c == '/' || c == '?' || c == '#'

/-- The text after the authority at the front, and whether the authority is empty. -/
def skipAuthority? (cs : List Char) : Option (Bool × List Char) :=
  let authority := cs.takeWhile fun c => !endsAuthority c
  match authority.foldlM AuthorityScan.step ⟨0, false, false, false, false⟩ with
  | some s =>
    if s.isFine then some (authority.isEmpty, cs.dropWhile fun c => !endsAuthority c) else none
  | none => none

/-! ## Targets -/

def maxSchemeLength : Nat := 64

def isSchemeChar (c : Char) : Bool := c.isAlphanum || c == '+' || c == '-' || c == '.'

inductive SchemePart where
  /-- The text after the scheme and its `://`. -/
  | present (rest : List Char)
  | absent
  | tooLong

def schemePart (cs : List Char) : SchemePart :=
  match cs.dropWhile (fun c => isSchemeChar c) with
  | ':' :: '/' :: '/' :: rest =>
    if maxSchemeLength < (cs.takeWhile (fun c => isSchemeChar c)).length then .tooLong
    else .present rest
  | _ => .absent

/-- The path of a target: of a path, of a whole URI, or the empty path of a lone authority. -/
def pathOf? (target : String) : Option String :=
  if maxTargetBytes < target.utf8ByteSize then none
  else
    match target.toList with
    | [] => none
    | ['*'] => some "*"
    | '/' :: rest => pathAndQuery? ('/' :: rest)
    | cs =>
      match schemePart cs with
      | .tooLong => none
      | .present rest =>
        match skipAuthority? rest with
        | some (false, rest') => pathAndQuery? rest'
        | _ => none
      | .absent =>
        match skipAuthority? cs with
        | some (_, []) => some ""
        | _ => none

def isMethod (text : String) : Bool :=
  !text.isEmpty && text.toList.all fun c =>
    c.isAlphanum || "!#$%&'*+-.^_`|~".toList.contains c

/-- Whether a text may be the value of a header: no control characters but the tab. -/
def isHeaderText (text : String) : Bool :=
  text.toList.all fun c => (32 ≤ c.toNat && c.toNat != 127) || c == '\t'

end EventBroker.Http
