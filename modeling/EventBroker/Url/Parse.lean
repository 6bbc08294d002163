import EventBroker.Url.Host
import EventBroker.Url.Path

/-! # URLs

An absolute URL: a scheme, maybe an authority, then a path or, as in `mailto:`, a text that is no
path, and maybe a query and a fragment. `Url.parse` brings a text to one form, which `Url.toText`
writes: blanks around it and tabs and line breaks in it do not count, dots in the path are resolved,
and a port that the scheme implies is left out.
-/
set_option autoImplicit false

namespace EventBroker

namespace Url

structure Authority where
  user : String
  password : Option String
  host : Host
  port : Option Nat
  deriving DecidableEq, Repr

inductive Tail where
  | path (p : Path)
  | text (cs : List Char)
  deriving DecidableEq, Repr

end Url

structure Url where
  scheme : String
  authority : Option Url.Authority
  tail : Url.Tail
  query : Option String
  fragment : Option String
  deriving DecidableEq, Repr

namespace Url

/-! ## Schemes -/

def defaultPort? : String → Option Nat
  | "http" | "ws" => some 80
  | "https" | "wss" => some 443
  | "ftp" => some 21
  | _ => none

/-- Whether a scheme has a special meaning: its URLs have hosts that are domains or addresses. -/
def isSpecial (scheme : String) : Bool := (defaultPort? scheme).isSome || scheme == "file"

def isSchemeChar (c : Char) : Bool := c.isAlphanum || c == '+' || c == '-' || c == '.'

def scheme? (cs : List Char) : Option String :=
  let scheme := cs.takeWhile (· != ':')
  if cs.contains ':' ∧ scheme.head?.any Char.isAlpha ∧ scheme.all isSchemeChar then
    some (String.ofList scheme).toLower
  else none

/-! ## Authorities -/

/-- The name and the password in front of a host, percent-coded. An empty password is as good as
none. -/
def readUser (cs : List Char) : String × Option String :=
  let code (cs : List Char) : String := String.ofList (Percent.encode codedInUser cs)
  let password := (cs.dropWhile (· != ':')).drop 1
  (code (cs.takeWhile (· != ':')), if password.isEmpty then none else some (code password))

/-- The host at the front of a text, up to a colon outside of brackets, and what follows. -/
def takeHost (inBrackets : Bool) : List Char → List Char × List Char
  | [] => ([], [])
  | c :: rest =>
    if c = ':' ∧ !inBrackets then ([], c :: rest)
    else
      let inBrackets := c = '[' || (c ≠ ']' && inBrackets)
      let (host, rest) := takeHost inBrackets rest
      (c :: host, rest)

def takePort (scheme : String) (cs : List Char) : Except UrlError (Option Nat × List Char) :=
  match cs with
  | ':' :: cs =>
    let digits := cs.takeWhile Char.isDigit
    let rest := cs.dropWhile Char.isDigit
    let port := (Text.readDigits 10 digits).getD 0
    if 65535 < port ∨ rest.head?.any (· != '\\') then .error .invalidPort
    else if digits.isEmpty ∨ some port = defaultPort? scheme then .ok (none, rest)
    else .ok (some port, rest)
  | _ => .ok (none, cs)

/-- The authority of a URL whose scheme is not `file`, and what of its text belongs to the path.
`followed` says whether anything follows the text. -/
def readAuthority (scheme : String) (followed : Bool) (cs : List Char) :
    Except UrlError (Authority × List Char) := do
  let hasUser := cs.contains '@'
  let place := (cs.reverse.takeWhile (· != '@')).reverse
  let userText := if hasUser then cs.take (cs.length - place.length - 1) else []
  if hasUser ∧ userText.isEmpty ∧ place.isEmpty ∧ followed then throw .emptyHost
  let (user, password) := readUser userText
  let (hostText, rest) := takeHost false place
  if isSpecial scheme ∧ hostText.isEmpty then throw .emptyHost
  let host ← if isSpecial scheme then Host.parse hostText else Host.parseAny hostText
  if host = .name "" ∧ !rest.isEmpty then throw .emptyHost
  let (port, rest) ← takePort scheme rest
  if host = .name "" ∧ (user ≠ "" ∨ password.isSome) then throw .emptyHost
  return (⟨user, password, host, port⟩, rest)

/-! ## Paths -/

def pathSegments (special : Bool) (cs : List Char) : List (List Char) :=
  match cs.dropWhile Path.isSkipped with
  | [] => [[]]
  | c :: rest => Path.segments special (if Path.isSlash special c then rest else c :: rest)

/-- The path that a text writes. Only without a special scheme may a path be empty. -/
def readPath (special : Bool) (cs : List Char) : Path :=
  if cs.isEmpty && !special then []
  else Path.walk false codedInPath [] (pathSegments special cs)

def dropVisible : Nat → List Char → List Char
  | 0, cs => cs
  | _ + 1, [] => []
  | n + 1, c :: cs => if Path.isSkipped c then dropVisible (n + 1) cs else dropVisible n cs

/-- The authority and the path of a file. Its host may be missing, and a path that starts with the
letter of a drive needs none. Where two slashes announce a host that is missing, what follows them
is the path, to its own slash. -/
def readFile (cs : List Char) : Except UrlError (Authority × Path) := do
  let file (host : Host) (segments : List (List Char)) : Authority × Path :=
    (⟨"", none, host, none⟩, Path.trim true (Path.walk true codedInPath [] segments))
  let nowhere : Host := .name ""
  match Path.visible cs with
  | a :: b :: rest =>
    if Path.isSlash true a && Path.isSlash true b then
      let hostText := rest.takeWhile fun c => !Path.isSlash true c
      if hostText.isEmpty ∨ Path.isDrive hostText then
        return file nowhere (Path.segments true (dropVisible 2 cs))
      let host ← Host.parse hostText
      let text := dropVisible (2 + hostText.length) cs
      if host = .name "localhost" then return file nowhere (Path.segments true text)
      let segments := pathSegments true text
      return file (if Path.findsDrive codedInPath [] segments then nowhere else host) segments
    else return file nowhere (pathSegments true cs)
  | _ => return file nowhere (pathSegments true cs)

/-! ## URLs -/

def trimmed (cs : List Char) : List Char :=
  let isBlank (c : Char) : Bool := c.toNat ≤ 0x20
  ((cs.dropWhile isBlank).reverse.dropWhile isBlank).reverse

def readMain (scheme : String) (followed : Bool) (cs : List Char) :
    Except UrlError (Option Authority × Tail) := do
  let special := isSpecial scheme
  let seen := Path.visible cs
  let withAuthority (cs : List Char) : Except UrlError (Option Authority × Tail) := do
    let place := cs.takeWhile fun c => !Path.isSlash special c
    let after := cs.dropWhile fun c => !Path.isSlash special c
    let (authority, rest) ← readAuthority scheme (followed || !after.isEmpty) place
    return (some authority, .path (readPath special (rest ++ after)))
  if scheme = "file" then
    let (authority, path) ← readFile cs
    return (some authority, .path path)
  else if special then withAuthority (seen.dropWhile (Path.isSlash true))
  else
    match seen with
    | '/' :: '/' :: rest => withAuthority rest
    | '/' :: rest => return (none, .path (readPath special ('/' :: rest)))
    | _ => return (none, .text (Percent.encode Percent.isControl seen))

def parse (text : String) : Except UrlError Url := do
  let cs := trimmed text.toList
  let some scheme := scheme? (Path.visible cs) | throw .noScheme
  let endsMain (c : Char) : Bool := c == '?' || c == '#'
  let cs := (cs.dropWhile (· != ':')).drop 1
  let suffix := Path.visible (cs.dropWhile fun c => !endsMain c)
  let (authority, tail) ←
    readMain scheme (!suffix.isEmpty) (cs.takeWhile fun c => !endsMain c)
  let code (set : Char → Bool) (cs : List Char) : String := String.ofList (Percent.encode set cs)
  let query := match suffix with
    | '?' :: rest => some (code (codedInQuery (isSpecial scheme)) (rest.takeWhile (· != '#')))
    | _ => none
  let fragment := match suffix.dropWhile (· != '#') with
    | _ :: rest => some (code codedInFragment rest)
    | [] => none
  return ⟨scheme, authority, tail, query, fragment⟩

/-! ## Texts -/

def Authority.toText (a : Authority) : String :=
  let password := a.password.elim "" (":" ++ ·)
  let user := a.user ++ password
  let port := a.port.elim "" fun p => ":" ++ Text.decimal p
  (if user = "" then "" else user ++ "@") ++ a.host.toText ++ port

def Tail.toText : Tail → String
  | .path p => String.ofList p.toText
  | .text cs => String.ofList cs

def target (u : Url) : String := u.tail.toText ++ u.query.elim "" ("?" ++ ·)

/-- The text of a URL. A path that starts with two slashes needs a mark in front if there is no
authority. -/
def toText (u : Url) : String :=
  let start := match u.authority, u.tail with
    | some a, _ => "//" ++ a.toText
    | none, .path ([] :: _ :: _) => "/."
    | none, _ => ""
  u.scheme ++ ":" ++ start ++ u.target ++ u.fragment.elim "" ("#" ++ ·)

/-! ## Segments -/

/-- Whether other URLs can be made from this one by adding to its path. -/
def isBase (u : Url) : Bool :=
  match u.tail with
  | .path _ => true
  | .text _ => false

def extend (u : Url) (segments : List String) : Url :=
  match u.tail with
  | .path p =>
    let add (p : Path) (segment : String) : Path :=
      p.push (isSpecial u.scheme) (u.scheme == "file") segment.toList
    { u with tail := .path (segments.foldl add p.popEmpty) }
  | .text _ => u

end Url

end EventBroker
