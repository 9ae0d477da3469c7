import TenantQuery.Yaml.Block
import TenantQuery.Yaml.Inline
import TenantQuery.Yaml.Tag

namespace TenantQuery.Yaml

inductive Token where
  | streamEnd
  | directive (directive : Directive)
  | documentStart
  | documentEnd
  | blockSequence
  | blockMapping
  | blockEnd
  | flowSequence
  | flowSequenceEnd
  | flowMapping
  | flowMappingEnd
  | item
  | comma
  | key
  | value
  | alias (name : String)
  | anchor (name : String)
  | tag (tag : WrittenTag)
  | scalar (text : String) (plain : Bool)

structure Candidate where
  possible : Bool := false
  -- Nothing but a key may stand in its place.
  required : Bool := false
  number : Nat := 0
  line : Nat := 0
  column : Nat := 0

/-- Tokens that have been read and not yet taken, and the state of the reading. -/
structure Tokens where
  cursor : Cursor
  queue : List Token := []
  taken : Nat := 0
  -- The columns of the open blocks, the innermost first.
  blocks : List Nat := []
  flow : Nat := 0
  keyAllowed : Bool := true
  -- A candidate for the text outside of brackets and one for every open bracket, the innermost
  -- first.
  candidates : List Candidate := [{}]
  -- Positions of tokens that may become keys, with the number of brackets around them.
  awaited : List (Nat × Nat) := []
  size : Nat := 0

namespace Tokens

def deepest : Nat := 10000

def keyReach : Nat := 1024

def ofText (text : List Char) : Tokens :=
  { cursor := { rest := text }, size := text.length }

def inFlow (t : Tokens) : Bool :=
  t.flow != 0

def least (t : Tokens) : Nat :=
  match t.blocks with
  | [] => 0
  | column :: _ => column + 1

def nextNumber (t : Tokens) : Nat :=
  t.taken + t.queue.length

def push (t : Tokens) (token : Token) : Tokens :=
  { t with queue := t.queue ++ [token] }

def insert (t : Tokens) (number : Nat) (token : Token) : Tokens :=
  if number < t.taken then t.push token
  else
    let i := number - t.taken
    { t with queue := t.queue.take i ++ token :: t.queue.drop i }

/-- Whether a candidate may still become a key. None if it had to become one. -/
def isOpen (t : Tokens) (k : Candidate) : Option Bool :=
  if !k.possible then some false
  else if k.line < t.cursor.line || k.column + keyReach < t.cursor.column then
    if k.required then none else some false
  else some true

def candidate (t : Tokens) : Candidate :=
  t.candidates.headD {}

def setCandidate (t : Tokens) (k : Candidate) : Tokens :=
  { t with candidates := k :: t.candidates.tail }

def forget (t : Tokens) (number : Nat) : Tokens :=
  { t with awaited := t.awaited.filter fun a => a.1 != number }

def dismiss (t : Tokens) : Option Tokens :=
  let k := t.candidate
  if !k.possible then some t
  else if k.required then none
  else some ((t.setCandidate { k with possible := false }).forget k.number)

def propose (t : Tokens) : Option Tokens :=
  if !t.keyAllowed then some t
  else do
    let k : Candidate :=
      { possible := true
        required := !t.inFlow && t.blocks.head? == some t.cursor.column
        number := t.nextNumber
        line := t.cursor.line
        column := t.cursor.column }
    let t ← t.dismiss
    let t := (t.setCandidate k).forget k.number
    return { t with awaited := (k.number, t.flow) :: t.awaited }

def awaitsHead (t : Tokens) : Option (Bool × Tokens) :=
  match t.awaited.lookup t.taken with
  | none => some (false, t)
  | some flow => do
    let i := t.flow - flow
    let k := t.candidates.getD i {}
    if ← t.isOpen k then return (true, t)
    else
      return (false,
        { t with candidates := t.candidates.set i { k with possible := false } })

def closeFrom (column : Nat) : List Nat → List Token × List Nat
  | [] => ([], [])
  | block :: blocks =>
    if column < block then
      let (tokens, blocks) := closeFrom column blocks
      (.blockEnd :: tokens, blocks)
    else ([], block :: blocks)

def closeBlocks (t : Tokens) : Tokens :=
  if t.inFlow then t
  else
    let (tokens, blocks) := closeFrom t.cursor.column t.blocks
    { t with queue := t.queue ++ tokens, blocks }

def closeAllBlocks (t : Tokens) : Tokens :=
  if t.inFlow then t
  else { t with queue := t.queue ++ t.blocks.map fun _ => .blockEnd, blocks := [] }

/-- Opens a block at a column to the right of the open ones, with its token at a position. -/
def openBlock (t : Tokens) (column number : Nat) (token : Token) : Option Tokens :=
  if t.inFlow || !(t.blocks.head?.all (· < column)) then some t
  else
    let t := { t with blocks := column :: t.blocks }
    if deepest < t.blocks.length then none else some (t.insert number token)

def openBracket (t : Tokens) : Option Tokens :=
  let k : Candidate :=
    { number := t.nextNumber, line := t.cursor.line, column := t.cursor.column }
  let t := { t with candidates := k :: t.candidates, flow := t.flow + 1 }
  if deepest < t.flow then none else some t

def closeBracket (t : Tokens) : Tokens :=
  if t.inFlow then
    let k := t.candidate
    ({ t with flow := t.flow - 1, candidates := t.candidates.tail } : Tokens).forget k.number
  else t

def finish (t : Tokens) (n : Nat) (keyAllowed : Bool) (token : Token) : Tokens :=
  { t.push token with cursor := (t.cursor.past n).pastRemark, keyAllowed }

def readEnd (t : Tokens) : Option Tokens := do
  let c := t.cursor
  let c := if c.column = 0 then c else { c with line := c.line + 1, column := 0 }
  let t ← ({ t with cursor := c } : Tokens).closeAllBlocks.dismiss
  return { t.push .streamEnd with keyAllowed := false }

def readDirectiveLine (t : Tokens) : Option Tokens := do
  let t ← t.closeAllBlocks.dismiss
  let (directive, rest) ← readDirective (t.cursor.rest.drop 1)
  let cursor : Cursor := { t.cursor with rest, column := t.cursor.column + 1 }
  return { t.push (.directive directive) with cursor := cursor.pastBreak, keyAllowed := false }

def readMarker (t : Tokens) : Option Tokens := do
  let t ← t.closeAllBlocks.dismiss
  let token := if t.cursor.rest.head? == some '-' then Token.documentStart else .documentEnd
  return { t.push token with cursor := t.cursor.past 3, keyAllowed := false }

def readOpening (t : Tokens) (token : Token) : Option Tokens := do
  let t ← t.propose
  let t ← t.openBracket
  return t.finish 1 true token

def readClosing (t : Tokens) (token : Token) : Option Tokens := do
  let t ← t.dismiss
  return t.closeBracket.finish 1 false token

def readComma (t : Tokens) : Option Tokens := do
  let t ← t.dismiss
  return t.finish 1 true .comma

def readItem (t : Tokens) : Option Tokens := do
  if !t.inFlow && !t.keyAllowed then none
  let t ← t.openBlock t.cursor.column t.nextNumber .blockSequence
  let t ← t.dismiss
  return { t.push .item with cursor := t.cursor.past 1, keyAllowed := true }

def readKey (t : Tokens) : Option Tokens := do
  if !t.inFlow && !t.keyAllowed then none
  let t ← t.openBlock t.cursor.column t.nextNumber .blockMapping
  let t ← t.dismiss
  return t.finish 1 (!t.inFlow) .key

/-- A colon makes a key of the candidate, if there is one; otherwise the key has been announced
before or is missing. -/
def readValue (t : Tokens) : Option Tokens := do
  let k := t.candidate
  if ← t.isOpen k then
    let t := t.insert k.number .key
    let t ← t.openBlock k.column k.number .blockMapping
    let t := (t.setCandidate { k with possible := false }).forget k.number
    return t.finish 1 false .value
  else
    let t := t.setCandidate { k with possible := false }
    if !t.inFlow && !t.keyAllowed then none
    let t ← t.openBlock t.cursor.column t.nextNumber .blockMapping
    return t.finish 1 (!t.inFlow) .value

def readReference (t : Tokens) (token : String → Token) : Option Tokens := do
  let t ← t.propose
  let name ← readName (t.cursor.rest.drop 1)
  return t.finish (1 + name.length) false (token (String.ofList name))

def readTagToken (t : Tokens) : Option Tokens := do
  let t ← t.propose
  let (tag, n) ← readTag t.cursor.rest
  return t.finish n false (.tag tag)

def readLinesToken (t : Tokens) : Option Tokens := do
  let t ← t.dismiss
  let (text, cursor) ← readBlock t.least t.cursor
  return { t.push (.scalar (String.ofList text) false) with cursor, keyAllowed := true }

def readQuoted (t : Tokens) (single : Bool) : Option Tokens := do
  let t ← t.propose
  let read := if single then readSingle else readDouble
  let (text, cursor) ← read (t.size + 1) (t.cursor.past 1)
  return ({ t with cursor } : Tokens).finish 0 false (.scalar (String.ofList text) false)

def readPlainToken (t : Tokens) : Option Tokens := do
  let t ← t.propose
  let p ← readPlain t.inFlow t.least (t.size + 1) { cursor := t.cursor }
  let cursor := if p.crossed then p.cursor else p.cursor.pastRemark
  return { t.push (.scalar (String.ofList p.text) true) with cursor, keyAllowed := p.crossed }

/-- Characters that begin no scalar without quotes, or only one that they do not stand alone in. -/
def isIndicator (c : Char) : Bool :=
  "-?:,[]\x7b\x7d#&*!|>'\"%@`".toList.contains c

def startsPlain (flow : Bool) (c : Char) (rest : List Char) : Bool :=
  !(isBlank c || isBreak c) &&
    (!isIndicator c ||
     (c == '-' && !(rest.head?.any isBlank)) ||
     (!flow && (c == '?' || c == ':') && !endsWord rest))

def readToken (t : Tokens) (c : Char) (rest : List Char) : Option Tokens :=
  let standsAlone := t.inFlow || endsWord rest
  match c with
  | '[' => t.readOpening .flowSequence
  | '\x7b' => t.readOpening .flowMapping
  | ']' => t.readClosing .flowSequenceEnd
  | '\x7d' => t.readClosing .flowMappingEnd
  | ',' => t.readComma
  | '*' => t.readReference .alias
  | '&' => t.readReference .anchor
  | '!' => t.readTagToken
  | '\x27' => t.readQuoted true
  | '"' => t.readQuoted false
  | _ =>
    if c = '-' ∧ endsWord rest then t.readItem
    else if c = '?' ∧ standsAlone then t.readKey
    else if c = ':' ∧ standsAlone then t.readValue
    else if (c = '|' ∨ c = '>') ∧ !t.inFlow then t.readLinesToken
    else if startsPlain t.inFlow c rest then t.readPlainToken
    else none

def readNext (t : Tokens) : Option Tokens :=
  let (cursor, keyAllowed) := t.cursor.skip t.inFlow t.keyAllowed
  let t := ({ t with cursor, keyAllowed } : Tokens).closeBlocks
  match cursor.rest with
  | [] => t.readEnd
  | c :: rest =>
    if c = '%' ∧ cursor.column = 0 then t.readDirectiveLine
    else if cursor.atMarker then t.readMarker
    else t.readToken c rest

def fill : (fuel : Nat) → Tokens → Option Tokens
  | 0, _ => none
  | fuel + 1, t =>
    if t.queue.length < 3 then t.readNext >>= fill fuel
    else do
      let (awaits, t) ← t.awaitsHead
      if awaits then t.readNext >>= fill fuel else return t

/-- The next token. Every token but the last has a character of its own or closes a block. -/
def peek (t : Tokens) : Option (Token × Tokens) := do
  let t ← t.fill (t.size + 4)
  let token ← t.queue.head?
  return (token, t)

def drop (t : Tokens) : Tokens :=
  { t with
    queue := t.queue.tail
    taken := t.taken + 1
    awaited := t.awaited.filter fun a => t.taken < a.1 }

end Tokens

end TenantQuery.Yaml
