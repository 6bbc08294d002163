import EventBroker.Text.Percent

/-! # Paths of URLs

A path is a list of segments, each with a slash in front. Segments that are one dot are left out,
two dots take back the segment before them. `Path.ofText` reads a path and `Path.push` adds one
segment whose text means nothing but itself.
-/
set_option autoImplicit false

namespace EventBroker.Url

/-! ## Percent-coded characters -/

/-- What is coded after a `#`. The other sets are larger. -/
def codedInFragment (c : Char) : Bool := Percent.isControl c || " \"<>`".toList.contains c

def codedInPath (c : Char) : Bool :=
  codedInFragment c || c == '#' || c == '?' || c == '\x7b' || c == '\x7d'

def codedInUser (c : Char) : Bool := codedInPath c || "/:;=@[\\]^|".toList.contains c

def codedInQuery (special : Bool) (c : Char) : Bool :=
  Percent.isControl c || " \"#<>".toList.contains c || (special && c == '\'')

def codedInSegment (special : Bool) (c : Char) : Bool :=
  codedInPath c || c == '/' || c == '%' || (special && c == '\\')

/-! ## Paths -/

/-- The segments of a path. No segments are the empty path, and one empty segment is a lone slash.
-/
abbrev Path := List (List Char)

namespace Path

/-- Whether a segment is one dot, which may be percent-coded. -/
def isDot (segment : List Char) : Bool :=
  [".", "%2e"].contains (String.ofList (segment.map Char.toLower))

def isTwoDots (segment : List Char) : Bool :=
  ["..", ".%2e", "%2e.", "%2e%2e"].contains (String.ofList (segment.map Char.toLower))

def isDrive : List Char → Bool
  | [c, d] => c.isAlpha && (d == ':' || d == '|')
  | _ => false

/-- A path without its last segment; the letter of a drive stays. -/
def parent (path : Path) : Path := if path.getLast?.any isDrive then path else path.dropLast

/-- Whether a character counts for nothing wherever it stands in a URL: a tab or a line break. -/
def isSkipped (c : Char) : Bool := c == '\t' || c == '\n' || c == '\r'

def visible (cs : List Char) : List Char := cs.filter fun c => !isSkipped c

/-- A segment as it is added to an empty path of a file. The letter of a drive has a colon, and it
is a segment of its own if a tab or a line break parts it from the rest. -/
def settle (coded : Char → Bool) (segment : List Char) : Path :=
  match visible segment with
  | [c, d] => if isDrive [c, d] then [[c, ':']] else [Percent.encode coded [c, d]]
  | c :: ':' :: rest =>
    if c.isAlpha && ((segment.dropWhile (· != ':')).drop 1).head?.any isSkipped then
      [[c, ':'], Percent.encode coded rest]
    else [Percent.encode coded (c :: ':' :: rest)]
  | seen => [Percent.encode coded seen]

def step (file : Bool) (coded : Char → Bool) (before : Path) (segment : List Char) : Path :=
  let seen := Percent.encode coded (visible segment)
  if isTwoDots seen then parent before
  else if isDot seen then before
  else if file && before.isEmpty then settle coded segment
  else before ++ [seen]

/-- Goes along segments, after those in `before`. Dots at the end leave an empty segment. -/
def walk (file : Bool) (coded : Char → Bool) (before : Path) (segments : List (List Char)) : Path :=
  let isDots (segment : List Char) : Bool :=
    let seen := Percent.encode coded (visible segment)
    isTwoDots seen || isDot seen
  let path := segments.foldl (step file coded) before
  if segments.getLast?.any isDots then path ++ [[]] else path

def findsDrive (coded : Char → Bool) (before : Path) : List (List Char) → Bool
  | [] => false
  | segment :: rest =>
    (before.isEmpty && isDrive (visible segment)) ||
      findsDrive coded (step true coded before segment) rest

/-- A file's path has no empty segments in front. -/
def trim (file : Bool) (path : Path) : Path :=
  if !file || path.isEmpty then path
  else
    match path.dropWhile (·.isEmpty) with
    | [] => [[]]
    | path => path

/-- Whether a character separates segments. In special URLs a backslash does as well. -/
def isSlash (special : Bool) (c : Char) : Bool := c == '/' || (special && c == '\\')

def segments (special : Bool) (cs : List Char) : List (List Char) := cs.splitOnP (isSlash special)

/-- Adds a segment. An empty segment at the end takes it if there is no other. One dot or two dots
are left out; but if tabs or line breaks hide the dots, they count. -/
def push (special file : Bool) (path : Path) (segment : List Char) : Path :=
  if segment = ['.'] ∨ segment = ['.', '.'] then path
  else
    let before := if path = [[]] then [] else path
    trim file (walk file (codedInSegment special) before [segment])

/-- A path without an empty segment at its end, unless there is no other. -/
def popEmpty (path : Path) : Path :=
  if 1 < path.length ∧ path.getLast? = some [] then path.dropLast else path

def toText (path : Path) : List Char := path.flatMap ('/' :: ·)

end Path

end EventBroker.Url
