import EventBroker.Yaml.Token

/-! # Nodes

The tokens of a text make up a tree of nodes: scalars, sequences and mappings. A node may have an
anchor, and an alias stands for the node with that anchor. `Document.ofText?` gives the one document
of a text, or nothing if the text is malformed or holds several.
-/
set_option autoImplicit false

namespace EventBroker.Yaml

structure Scalar where
  text : String
  style : Style
  tag : Option String
  deriving DecidableEq, Repr

namespace Scalar

def missing : Scalar := ⟨"", .plain, none⟩

end Scalar

inductive Node where
  | scalar (s : Scalar)
  | sequence (items : List Node)
  | mapping (members : List (Node × Node))
  | alias (number : Nat)

structure Document where
  /-- None if the text has neither a node nor the mark of a document. -/
  root : Option Node
  /-- The scalars with an anchor, by the anchor's number, latest first; no scalar where the node is
  a collection. -/
  anchors : List (Nat × Option Scalar)

namespace Document

/-- The scalar that a node is or stands for. -/
def scalar? (d : Document) : Node → Option Scalar
  | .scalar s => some s
  | .alias number => (d.anchors.lookup number).join
  | _ => none

end Document

/-! ## Reading nodes -/

structure Composer where
  tokens : List Token
  handles : List (String × String)
  /-- The number of each anchor's name. An anchor gets the number of names known before it; so if it
  takes a name again, the next new name will share its number. -/
  names : List (String × Nat)
  anchors : List (Nat × Option Scalar)

/-- Reading fails at the first token that does not fit. -/
abbrev Compose := StateT Composer Option

namespace Compose

def peek : Compose (Option Token) := return (← get).tokens.head?

def skip : Compose Unit := modify fun c => { c with tokens := c.tokens.drop 1 }

/-- Passes over the next token if it is the given one, and says whether it was. -/
def take (t : Token) : Compose Bool := do
  if (← peek) = some t then
    skip
    return true
  else return false

def properties : Compose (Option String × Option (String × String)) := do
  let c ← get
  let found (anchor : Option String) (tag : Option (String × String)) (rest : List Token) :
      Compose (Option String × Option (String × String)) := do
    set { c with tokens := rest }
    return (anchor, tag)
  match c.tokens with
  | .anchor name :: .tag handle suffix :: rest => found (some name) (some (handle, suffix)) rest
  | .tag handle suffix :: .anchor name :: rest => found (some name) (some (handle, suffix)) rest
  | .anchor name :: rest => found (some name) none rest
  | .tag handle suffix :: rest => found none (some (handle, suffix)) rest
  | _ => return (none, none)

def fullTag (handle suffix : String) : Compose String := do
  if handle = "" then return suffix
  match (← get).handles.lookup handle with
  | some stem => return stem ++ suffix
  | none => failure

def register (anchor : Option String) (s : Option Scalar) : Compose Unit := do
  match anchor with
  | none => return ()
  | some name =>
    modify fun c =>
      let number := c.names.length
      { c with
        names := (name, number) :: c.names.filter (·.1 != name)
        anchors := (number, s) :: c.anchors }

def aliased (name : String) : Compose Node := do
  match (← get).names.lookup name with
  | some number => return .alias number
  | none => failure

/-- Reads a node unless one of some tokens comes next; then the node is missing. -/
def unlessNext (stops : List Token) (read : Compose Node) : Compose Node := do
  match ← peek with
  | some t => if stops.contains t then return .scalar .missing else read
  | none => read

/-- Reads the node behind a token, unless one of some tokens comes next. Without the token the node
is missing. -/
def behind (t : Token) (stops : List Token) (read : Compose Node) : Compose Node := do
  if ← take t then unlessNext stops read else return .scalar .missing

end Compose

inductive Place where
  /-- Inside brackets: there are no blocks. -/
  | flow
  | block
  /-- In a mapping that is a block: a sequence need not be indented. -/
  | member
  deriving DecidableEq

open Compose

mutual

/-- A node. Every token allows at most three calls, so their number bounds the fuel. -/
def composeNode : Nat → Place → Compose Node
  | 0, _ => failure
  | fuel + 1, place => do
    if let some (.alias name) ← peek then
      skip
      return ← aliased name
    let (anchor, tag) ← properties
    let tag ← tag.mapM fun (handle, suffix) => fullTag handle suffix
    match ← peek with
    | some (.scalar text style) =>
      skip
      let s : Scalar := ⟨text, style, if tag = some "!" then none else tag⟩
      register anchor (some s)
      return .scalar s
    | some .flowSequenceStart =>
      skip
      register anchor none
      return .sequence (← composeFlowItems fuel [])
    | some .flowMappingStart =>
      skip
      register anchor none
      return .mapping (← composeFlowMembers fuel [])
    | next =>
      if next = some .blockSequenceStart ∧ place ≠ .flow then
        skip
        register anchor none
        return .sequence (← composeItems fuel [])
      else if next = some .blockMappingStart ∧ place ≠ .flow then
        skip
        register anchor none
        return .mapping (← composeMembers fuel [])
      else if next = some .blockEntry ∧ place = .member then
        register anchor none
        return .sequence (← composeFlushItems fuel [])
      else if anchor.isSome ∨ tag.isSome then
        let s : Scalar := { Scalar.missing with tag }
        register anchor (some s)
        return .scalar s
      else failure

def composeItems : Nat → List Node → Compose (List Node)
  | 0, _ => failure
  | fuel + 1, items => do
    match ← peek with
    | some .blockEntry =>
      let item ← behind .blockEntry [.blockEntry, .blockEnd] (composeNode fuel .block)
      composeItems fuel (item :: items)
    | some .blockEnd =>
      skip
      return items.reverse
    | _ => failure

/-- The items of a sequence that is not indented more than the mapping it stands in. -/
def composeFlushItems : Nat → List Node → Compose (List Node)
  | 0, _ => failure
  | fuel + 1, items => do
    match ← peek with
    | some .blockEntry =>
      let item ← behind .blockEntry [.blockEntry, .key, .value, .blockEnd] (composeNode fuel .block)
      composeFlushItems fuel (item :: items)
    | _ => return items.reverse

def composeMembers : Nat → List (Node × Node) → Compose (List (Node × Node))
  | 0, _ => failure
  | fuel + 1, members => do
    match ← peek with
    | some .key =>
      let stops := [.key, .value, .blockEnd]
      let key ← behind .key stops (composeNode fuel .member)
      let value ← behind .value stops (composeNode fuel .member)
      composeMembers fuel ((key, value) :: members)
    | some .blockEnd =>
      skip
      return members.reverse
    | _ => failure

/-- The items of a sequence in brackets. An item may be a key with its value, a mapping of its own;
where such a key is missing, the token after its mark is passed over. -/
def composeFlowItems : Nat → List Node → Compose (List Node)
  | 0, _ => failure
  | fuel + 1, items => do
    if ← take .flowSequenceEnd then return items.reverse
    unless items.isEmpty do guard (← take .flowEntry)
    match ← peek with
    | some .key =>
      skip
      let key ← match ← peek with
        | some .value | some .flowEntry | some .flowSequenceEnd =>
          skip
          pure (.scalar .missing)
        | _ => composeNode fuel .flow
      let value ← behind .value [.flowEntry, .flowSequenceEnd] (composeNode fuel .flow)
      composeFlowItems fuel (.mapping [(key, value)] :: items)
    | some .flowSequenceEnd =>
      skip
      return items.reverse
    | _ =>
      let item ← composeNode fuel .flow
      composeFlowItems fuel (item :: items)

def composeFlowMembers : Nat → List (Node × Node) → Compose (List (Node × Node))
  | 0, _ => failure
  | fuel + 1, members => do
    if ← take .flowMappingEnd then return members.reverse
    unless members.isEmpty do guard (← take .flowEntry)
    match ← peek with
    | some .key =>
      let key ←
        behind .key [.value, .flowEntry, .flowMappingEnd] (composeNode fuel .flow)
      let value ← behind .value [.flowEntry, .flowMappingEnd] (composeNode fuel .flow)
      composeFlowMembers fuel ((key, value) :: members)
    | some .flowMappingEnd =>
      skip
      return members.reverse
    | _ =>
      let key ← composeNode fuel .flow
      composeFlowMembers fuel ((key, .scalar .missing) :: members)

end

/-! ## Documents -/

namespace Document

def defaultHandles : List (String × String) := [("!", "!"), ("!!", "tag:yaml.org,2002:")]

/-- The handles that the directives in front of a document define, and the tokens after them. There
is at most one version, 1.1 or 1.2, and no handle is defined twice. -/
def takeDirectives (version : Bool) (handles : List (String × String)) :
    List Token → Option (List (String × String) × List Token)
  | .versionDirective major minor :: rest =>
    if version ∨ major ≠ 1 ∨ (minor ≠ 1 ∧ minor ≠ 2) then none
    else takeDirectives true handles rest
  | .tagDirective handle stem :: rest =>
    if (handles.lookup handle).isSome then none
    else takeDirectives version (handles ++ [(handle, stem)]) rest
  | tokens => some (handles ++ defaultHandles, tokens)

def endsEmpty : Option Token → Bool
  | none | some .documentStart | some .documentEnd => true
  | some (.versionDirective _ _) | some (.tagDirective _ _) => true
  | _ => false

/-- The document that some tokens make up, after its start. Nothing follows it but marks of its end.
-/
def compose (handles : List (String × String)) (marked : Bool) (tokens : List Token) :
    Option Document :=
  let read :=
    if marked && endsEmpty tokens.head? then pure (.scalar .missing)
    else composeNode (3 * tokens.length + 3) .block
  match read.run ⟨tokens, handles, [], []⟩ with
  | some (root, c) => if c.tokens.all (· == .documentEnd) then some ⟨root, c.anchors⟩ else none
  | none => none

/-- The document that tokens make up. Its start is marked if there are directives. -/
def ofTokens? (tokens : List Token) : Option Document :=
  match tokens with
  | [] => some ⟨none, []⟩
  | .versionDirective _ _ :: _ | .tagDirective _ _ :: _ | .documentStart :: _ =>
    match takeDirectives false [] tokens with
    | some (handles, .documentStart :: body) => compose handles true body
    | _ => none
  | _ => compose defaultHandles false tokens

def ofText? (text : String) : Option Document := (Token.ofText? text).bind ofTokens?

end Document

end EventBroker.Yaml
