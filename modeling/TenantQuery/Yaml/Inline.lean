import TenantQuery.Text.Hex
import TenantQuery.Yaml.Cursor

namespace TenantQuery.Yaml

def isFlowMark (c : Char) : Bool :=
  c == ',' || c == '?' || c == '[' || c == ']' || c == '\x7b' || c == '\x7d'

def takeWord (flow : Bool) : List Char → List Char × List Char
  | [] => ([], [])
  | c :: rest =>
    if endsWord (c :: rest) || (c == ':' && endsWord rest) || (flow && isFlowMark c) then
      ([], c :: rest)
    else
      let (word, rest) := takeWord flow rest
      (c :: word, rest)

structure Plain where
  text : List Char := []
  -- Line ends after the text have been read with it.
  crossed : Bool
  cursor : Cursor

/-- Words without quotes, joined over lines that are indented to `least`. The words follow upon
`gap`. -/
def readPlain (flow : Bool) (least : Nat) : (fuel : Nat) → (gap : Gap) → Option Plain
  | 0, _ => none
  | fuel + 1, gap =>
    let c := gap.cursor
    let (word, rest) := takeWord flow c.rest
    if c.atMarker || c.rest.head? == some '#' || word.isEmpty then
      some { crossed := gap.crossesLine, cursor := c }
    else
      let after := c.past word.length
      if rest.isEmpty || !endsWord rest then
        some { text := gap.text ++ word, crossed := false, cursor := after }
      else
        let next := after.gap least
        if next.tabbed then none
        else if !flow && next.cursor.column < least then
          some { text := gap.text ++ word, crossed := next.crossesLine, cursor := next.cursor }
        else do
          let more ← readPlain flow least fuel next
          return { more with text := gap.text ++ word ++ more.text }

def escape? : Char → Option Char
  | '0' => some '\x00'
  | 'a' => some '\x07'
  | 'b' => some '\x08'
  | 't' | '\t' => some '\t'
  | 'n' => some '\n'
  | 'v' => some '\x0b'
  | 'f' => some '\x0c'
  | 'r' => some '\r'
  | 'e' => some '\x1b'
  | ' ' => some ' '
  | '"' => some '"'
  | '\x27' => some '\x27'
  | '\\' => some '\\'
  | 'N' => some '\u0085'
  | '_' => some '\u00a0'
  | 'L' => some '\u2028'
  | 'P' => some '\u2029'
  | _ => none

def hexWidth : Char → Nat
  | 'x' => 2
  | 'u' => 4
  | 'U' => 8
  | _ => 0

def ofCode? (digits : List Char) : Option Char := do
  let n ← Text.Hex.number? digits
  if n < 0xd800 ∨ (0xdfff < n ∧ n ≤ 0x10ffff) then return Char.ofNat n else none

def readDouble : (fuel : Nat) → Cursor → Option (List Char × Cursor)
  | 0, _ => none
  | fuel + 1, c =>
    if c.atMarker then none
    else
      match c.rest with
      | [] => none
      | '"' :: _ => some ([], c.past 1)
      | '\\' :: mark :: rest =>
        if isBreak mark then do
          let gap := Cursor.gap ⟨rest, c.line + 1, 0⟩ 0
          let (more, c) ← readDouble fuel gap.cursor
          return (gap.breaks ++ more, c)
        else
          match escape? mark with
          | some ch => do
            let (more, c) ← readDouble fuel (c.past 2)
            return (ch :: more, c)
          | none =>
            let digits := rest.take (hexWidth mark)
            if digits.isEmpty || digits.length < hexWidth mark then none
            else do
              let ch ← ofCode? digits
              let (more, c) ← readDouble fuel (c.past (2 + hexWidth mark))
              return (ch :: more, c)
      | ch :: _ =>
        if endsWord c.rest then do
          let gap := c.gap 0
          let (more, c) ← readDouble fuel gap.cursor
          return (gap.text ++ more, c)
        else do
          let (more, c) ← readDouble fuel (c.past 1)
          return (ch :: more, c)

def readSingle : (fuel : Nat) → Cursor → Option (List Char × Cursor)
  | 0, _ => none
  | fuel + 1, c =>
    if c.atMarker then none
    else
      match c.rest with
      | [] => none
      | '\x27' :: '\x27' :: _ => do
        let (more, c) ← readSingle fuel (c.past 2)
        return ('\x27' :: more, c)
      | '\x27' :: _ => some ([], c.past 1)
      | ch :: _ =>
        if endsWord c.rest then do
          let gap := c.gap 0
          let (more, c) ← readSingle fuel gap.cursor
          return (gap.text ++ more, c)
        else do
          let (more, c) ← readSingle fuel (c.past 1)
          return (ch :: more, c)

end TenantQuery.Yaml
