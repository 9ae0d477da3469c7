import TenantQuery.Error
import TenantQuery.Yaml.Node
import TenantQuery.Yaml.Source
import TenantQuery.Yaml.Token

namespace TenantQuery.Yaml

/-- A name of a node, which is missing while the node is being read. -/
structure Anchor where
  name : String
  node : Option Node := none

structure State where
  tokens : Tokens
  handles : List (String × String) := []
  anchors : List Anchor := []

abbrev Parser := StateT State Option

namespace Parser

def peek : Parser Token := do
  let s ← get
  let (token, tokens) ← s.tokens.peek
  set { s with tokens }
  return token

def drop : Parser Unit :=
  modify fun s => { s with tokens := s.tokens.drop }

def dropPeek : Parser Token := do
  drop
  peek

/-- Name and tag in front of a node. The tag is a full name, or a mark that says nothing. -/
structure Properties where
  anchor : Option String := none
  tag : Option String := none

def fullTag (handles : List (String × String)) (t : WrittenTag) : Option String :=
  if t.handle = "" then some t.suffix
  else (handles.lookup t.handle).map (· ++ t.suffix)

def tagName (t : WrittenTag) : Parser String := do
  fullTag (← get).handles t

def properties (token : Token) : Parser (Properties × Token) := do
  match token with
  | .anchor name =>
    match ← dropPeek with
    | .tag t =>
      let token ← dropPeek
      return ({ anchor := some name, tag := some (← tagName t) }, token)
    | token => return ({ anchor := some name }, token)
  | .tag t =>
    match ← dropPeek with
    | .anchor name =>
      let token ← dropPeek
      return ({ anchor := some name, tag := some (← tagName t) }, token)
    | token => return ({ tag := some (← tagName t) }, token)
  | token => return ({}, token)

def scalar (tag : Option String) (text : String) (plain : Bool) : Node :=
  match tag with
  | some name => if name = "!" then untagged else .scalar text (Tag.ofName name)
  | none => untagged
where
  untagged : Node :=
    .scalar text
      (if !plain then .str else if text = "<<" then .merge else (Scalar.resolve text).tag)

def openAnchor (name : Option String) : Parser Unit :=
  match name with
  | none => pure ()
  | some name => modify fun s => { s with anchors := { name } :: s.anchors }

def closeAnchor (before : Nat) (n : Node) (s : State) : State :=
  let i := s.anchors.length - before - 1
  { s with anchors := s.anchors.modify i fun a => { a with node := some n } }

def reference (name : String) : Parser Node := do
  let a ← (← get).anchors.find? fun a => a.name == name
  match a.node with
  | some n => return .alias name n
  | none => return .loop name

def named (name : Option String) (content : Parser Node) : Parser Node := do
  let before := (← get).anchors.length
  openAnchor name
  let n ← content
  if name.isSome then modify (closeAnchor before n)
  return n

structure Place where
  block : Bool
  -- Items may stand in the column of the key before them.
  items : Bool

def inFlow : Place := ⟨false, false⟩

def asItem : Place := ⟨true, false⟩

def inMapping : Place := ⟨true, true⟩

def empty (p : Properties) : Parser Node :=
  if p.anchor.isSome || p.tag.isSome then return scalar p.tag "" true else failure

def separated (first : Bool) (token : Token) : Parser Token :=
  match token with
  | .flowSequenceEnd | .flowMappingEnd => return token
  | .comma => if first then return token else dropPeek
  | token => if first then return token else failure

mutual

def node : (fuel : Nat) → Place → Token → Parser Node
  | 0, _, _ => failure
  | fuel + 1, place, token => do
    match token with
    | .alias name =>
      let n ← reference name
      drop
      return n
    | token =>
      let (p, token) ← properties token
      named p.anchor (content fuel place p token)

def content : (fuel : Nat) → Place → Properties → Token → Parser Node
  | 0, _, _, _ => failure
  | fuel + 1, place, p, token => do
    match token with
    | .item =>
      if place.items then return .sequence (← plainItems fuel)
      else empty p
    | .scalar text plain =>
      drop
      return scalar p.tag text plain
    | .flowSequence =>
      drop
      return .sequence (← flowItems fuel true)
    | .flowMapping =>
      drop
      return .mapping (← flowEntries fuel true)
    | .blockSequence =>
      if place.block then
        drop
        return .sequence (← blockItems fuel)
      else empty p
    | .blockMapping =>
      if place.block then
        drop
        return .mapping (← blockEntries fuel)
      else empty p
    | _ => empty p

def blockItems : (fuel : Nat) → Parser (List Node)
  | 0 => failure
  | fuel + 1 => do
    match ← peek with
    | .item =>
      let n ←
        match ← dropPeek with
        | .item | .blockEnd => pure Node.empty
        | token => node fuel asItem token
      return n :: (← blockItems fuel)
    | .blockEnd =>
      drop
      return []
    | _ => failure

def plainItems : (fuel : Nat) → Parser (List Node)
  | 0 => failure
  | fuel + 1 => do
    match ← peek with
    | .item =>
      let n ←
        match ← dropPeek with
        | .item | .key | .value | .blockEnd => pure Node.empty
        | token => node fuel asItem token
      return n :: (← plainItems fuel)
    | _ => return []

def blockEntries : (fuel : Nat) → Parser (List (Node × Node))
  | 0 => failure
  | fuel + 1 => do
    match ← peek with
    | .key =>
      let key ← blockPart fuel
      let value ←
        match ← peek with
        | .value => blockPart fuel
        | _ => pure Node.empty
      return (key, value) :: (← blockEntries fuel)
    | .blockEnd =>
      drop
      return []
    | _ => failure

def blockPart : (fuel : Nat) → Parser Node
  | 0 => failure
  | fuel + 1 => do
    match ← dropPeek with
    | .key | .value | .blockEnd => return .empty
    | token => node fuel inMapping token

def flowItems : (fuel : Nat) → (first : Bool) → Parser (List Node)
  | 0, _ => failure
  | fuel + 1, first => do
    match ← separated first (← peek) with
    | .flowSequenceEnd =>
      drop
      return []
    | .key =>
      let entry ← flowPair fuel
      return .mapping [entry] :: (← flowItems fuel false)
    | token =>
      let n ← node fuel inFlow token
      return n :: (← flowItems fuel false)

/-- A single entry between square brackets. Where its key is missing, the token in the place of the
key goes with it. -/
def flowPair : (fuel : Nat) → Parser (Node × Node)
  | 0 => failure
  | fuel + 1 => do
    let key ←
      match ← dropPeek with
      | .value | .comma | .flowSequenceEnd => do
        drop
        pure Node.empty
      | token => node fuel inFlow token
    match ← peek with
    | .value =>
      match ← dropPeek with
      | .comma | .flowSequenceEnd => return (key, .empty)
      | token => return (key, ← node fuel inFlow token)
    | _ => return (key, .empty)

def flowEntries : (fuel : Nat) → (first : Bool) → Parser (List (Node × Node))
  | 0, _ => failure
  | fuel + 1, first => do
    match ← separated first (← peek) with
    | .flowMappingEnd =>
      drop
      return []
    | .key =>
      let entry ← flowEntry fuel
      return entry :: (← flowEntries fuel false)
    | token =>
      let key ← node fuel inFlow token
      return (key, .empty) :: (← flowEntries fuel false)

def flowEntry : (fuel : Nat) → Parser (Node × Node)
  | 0 => failure
  | fuel + 1 => do
    let key ←
      match ← dropPeek with
      | .value | .comma | .flowMappingEnd => pure Node.empty
      | token => node fuel inFlow token
    match ← peek with
    | .value =>
      match ← dropPeek with
      | .comma | .flowMappingEnd => return (key, .empty)
      | token => return (key, ← node fuel inFlow token)
    | _ => return (key, .empty)

end

def standardHandles : List (String × String) :=
  [("!", "!"), ("!!", Tag.standard)]

/-- The directives from the given token on and the token after them: at most one version, which has
to be 1.1, and one meaning for each handle. -/
def directives : (fuel : Nat) → (versioned : Bool) → Token → Parser Token
  | 0, _, _ => failure
  | fuel + 1, versioned, token =>
    match token with
    | .directive (.version major minor) => do
      if versioned || major != 1 || minor != 1 then failure
      directives fuel true (← dropPeek)
    | .directive (.handle name stem) => do
      let s ← get
      if (s.handles.lookup name).isSome then failure
      set { s with handles := (name, stem) :: s.handles }
      directives fuel versioned (← dropPeek)
    | token => return token

def marked (fuel : Nat) : Parser Node := do
  match ← dropPeek with
  | .directive _ | .documentStart | .documentEnd | .streamEnd => return .empty
  | token => node fuel asItem token

def document (fuel : Nat) : Parser (Option Node) := do
  let root ←
    match ← peek with
    | .streamEnd => return none
    | .directive d =>
      match ← directives fuel false (.directive d) with
      | .documentStart =>
        withStandardHandles
        marked fuel
      | _ => failure
    | .documentStart =>
      withStandardHandles
      marked fuel
    | token =>
      withStandardHandles
      node fuel asItem token
  let _ ← peek
  return some root
where
  withStandardHandles : Parser Unit :=
    modify fun s => { s with handles := s.handles ++ standardHandles }

end Parser

def parse (octets : List UInt8) : Except Error (Option Tree) :=
  let tree? : Option (Option Tree) := do
    let text ← Source.read octets
    -- Between two tokens that have characters there are only a few calls and tokens without
    -- characters, so that the bound is never reached.
    let bound := 32 * text.length + 64
    let (root, _) ← (Parser.document bound).run { tokens := Tokens.ofText text }
    return root.map fun root => { root, bound }
  match tree? with
  | some tree => .ok tree
  | none => .error .badYaml

end TenantQuery.Yaml
