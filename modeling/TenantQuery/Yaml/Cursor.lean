namespace TenantQuery.Yaml

structure Cursor where
  rest : List Char
  line : Nat := 0
  column : Nat := 0

def isBlank (c : Char) : Bool :=
  c == ' ' || c == '\t'

def isBreak (c : Char) : Bool :=
  c == '\n' || c == '\u2028' || c == '\u2029'

def endsLine : List Char → Bool
  | [] => true
  | c :: _ => isBreak c

def endsWord : List Char → Bool
  | [] => true
  | c :: _ => isBlank c || isBreak c

def lineEnd (cs : List Char) : List Char :=
  cs.dropWhile fun c => !isBreak c

def isMarker : List Char → Bool
  | '-' :: '-' :: '-' :: rest => endsWord rest
  | '.' :: '.' :: '.' :: rest => endsWord rest
  | _ => false

namespace Cursor

def atMarker (c : Cursor) : Bool :=
  c.column == 0 && isMarker c.rest

def past (c : Cursor) (n : Nat) : Cursor :=
  { c with rest := c.rest.drop n, column := c.column + n }

def pastBreak (c : Cursor) : Cursor :=
  match c.rest with
  | ch :: rest => if isBreak ch then ⟨rest, c.line + 1, 0⟩ else c
  | [] => c

def reach : Nat := 512

/-- Moves past a remark on the same line, if there is one, and the white space in front of it. -/
def pastRemark (c : Cursor) : Cursor :=
  let blanks := c.rest.takeWhile isBlank
  let rest := c.rest.drop blanks.length
  if rest.head? == some '#' && blanks.length < reach then
    let remark := rest.takeWhile fun ch => !isBreak ch
    c.past (blanks.length + remark.length)
  else c

def beforeRemark (rest : List Char) : Bool :=
  let between := rest.takeWhile fun c => isBlank c || c == '\n'
  between.length + 1 < reach && (rest.drop between.length).head? == some '#'

inductive Passing where
  | space
  | remark
  | between

/-- White space and remarks in front of the next token, and whether a key may begin there. Outside
brackets a key may begin on a new line, and a tab does not stand where a key may begin, except
between two remarks. -/
def skipFrom (flow : Bool) :
    Passing → (line column : Nat) → (keyAllowed : Bool) → List Char → Cursor × Bool
  | _, line, column, keyAllowed, [] => (⟨[], line, column⟩, keyAllowed)
  | passing, line, column, keyAllowed, c :: rest =>
    if isBreak c then
      let next : Passing :=
        match passing with
        | .space => .space
        | .remark => if c == '\n' && beforeRemark rest then .between else .space
        | .between => .between
      skipFrom flow next (line + 1) 0 (keyAllowed || !flow) rest
    else
      match passing with
      | .remark => skipFrom flow .remark line (column + 1) keyAllowed rest
      | .between =>
        skipFrom flow (if c = '#' then .remark else .between) line (column + 1) keyAllowed rest
      | .space =>
        if c = '#' then skipFrom flow .remark line (column + 1) keyAllowed rest
        else if c = ' ' ∨ (c = '\t' ∧ (flow ∨ !keyAllowed)) then
          skipFrom flow .space line (column + 1) keyAllowed rest
        else (⟨c :: rest, line, column⟩, keyAllowed)

def skip (flow keyAllowed : Bool) (c : Cursor) : Cursor × Bool :=
  skipFrom flow .space c.line c.column keyAllowed c.rest

end Cursor

structure Gap where
  -- The white space, if the words stand on one line.
  blanks : List Char := []
  breaks : List Char := []
  -- A tab that stands where indentation is due.
  tabbed : Bool := false
  cursor : Cursor

/-- Reads white space up to the next word, which should stand at least at column `least`. What has
been read is listed backwards. -/
def gapFrom (least : Nat) :
    (blanks breaks : List Char) → (tabbed : Bool) → (line column : Nat) →
      List Char → Gap
  | blanks, breaks, tabbed, line, column, [] =>
    ⟨blanks.reverse, breaks.reverse, tabbed, ⟨[], line, column⟩⟩
  | blanks, breaks, tabbed, line, column, c :: rest =>
    if isBreak c then gapFrom least [] (c :: breaks) tabbed (line + 1) 0 rest
    else if isBlank c then
      gapFrom least (if breaks.isEmpty then c :: blanks else blanks) breaks
        (tabbed || (c == '\t' && !breaks.isEmpty && column < least)) line (column + 1) rest
    else ⟨blanks.reverse, breaks.reverse, tabbed, ⟨c :: rest, line, column⟩⟩

def Cursor.gap (c : Cursor) (least : Nat) : Gap :=
  gapFrom least [] [] false c.line c.column c.rest

namespace Gap

def crossesLine (g : Gap) : Bool :=
  !g.breaks.isEmpty

def text (g : Gap) : List Char :=
  match g.breaks with
  | [] => g.blanks
  | ['\n'] => [' ']
  | '\n' :: more => more
  | all => all

end Gap

end TenantQuery.Yaml
