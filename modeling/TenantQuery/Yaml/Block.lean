import TenantQuery.Yaml.Cursor

namespace TenantQuery.Yaml

inductive Chomp where
  | strip
  | clip
  | keep
deriving DecidableEq

structure BlockHeader where
  chomp : Chomp := .clip
  -- Columns of indentation beyond the surrounding block, zero where the text shows it.
  indent : Nat := 0

def readHeader : List Char → Option (BlockHeader × List Char)
  | a :: b :: rest =>
    match chomp? a, indent? a, chomp? b, indent? b with
    | some chomp, _, _, some indent => header chomp indent rest
    | _, some indent, some chomp, _ => header chomp indent rest
    | some chomp, _, _, none => some (⟨chomp, 0⟩, b :: rest)
    | _, some indent, none, _ => header .clip indent (b :: rest)
    | none, none, _, _ => some ({}, a :: b :: rest)
  | [a] =>
    match chomp? a, indent? a with
    | some chomp, _ => some (⟨chomp, 0⟩, [])
    | _, some indent => header .clip indent []
    | none, none => some ({}, [a])
  | [] => some ({}, [])
where
  chomp? (c : Char) : Option Chomp :=
    if c = '-' then some .strip else if c = '+' then some .keep else none
  indent? (c : Char) : Option Nat :=
    if '0' ≤ c ∧ c ≤ '9' then some (c.toNat - 48) else none
  header (chomp : Chomp) (indent : Nat) (rest : List Char) : Option (BlockHeader × List Char) :=
    if indent = 0 then none else some (⟨chomp, indent⟩, rest)

def endHeader (c : Cursor) : Option Cursor :=
  let c := c.past (c.rest.takeWhile isBlank).length
  let rest := if c.rest.head? == some '#' then lineEnd c.rest else c.rest
  if endsLine rest then some (Cursor.pastBreak { c with rest }) else none

/-- Empty lines in front of a line with text: their ends, the widest indentation and the place of
the text. Indentation is eaten up to column `indent`, or all of it if that is zero. -/
def emptyLines (indent : Nat) :
    (breaks : List Char) → (most line column : Nat) → List Char →
      Option (List Char × Nat × Cursor)
  | breaks, most, line, column, [] => some (breaks, max most column, ⟨[], line, column⟩)
  | breaks, most, line, column, c :: rest =>
    if c = ' ' ∧ (indent = 0 ∨ column < indent) then
      emptyLines indent breaks most line (column + 1) rest
    else if c = '\t' ∧ (indent = 0 ∨ column < indent) then none
    else if isBreak c then
      emptyLines indent (breaks ++ [c]) (max most column) (line + 1) 0 rest
    else some (breaks, max most column, ⟨c :: rest, line, column⟩)

/-- What stands between two lines of a text: the end of the first and those of empty lines. A folded
text joins lines that do not begin with white space. -/
def between (folded fromBlank toBlank : Bool) (ending breaks : List Char) : List Char :=
  if folded && !fromBlank && !toBlank && ending == ['\n'] then
    if breaks.isEmpty then [' '] else breaks
  else ending ++ breaks

def Chomp.tail (chomp : Chomp) (ending breaks : List Char) : List Char :=
  match chomp with
  | .strip => []
  | .clip => ending
  | .keep => ending ++ breaks

def readLines (folded : Bool) (chomp : Chomp) (indent : Nat) :
    (fuel : Nat) → (fromBlank : Bool) → (ending breaks : List Char) → Cursor →
      Option (List Char × Cursor)
  | 0, _, _, _, _ => none
  | fuel + 1, fromBlank, ending, breaks, c =>
    match c.rest with
    | [] => some (chomp.tail ending breaks, c)
    | first :: _ =>
      if c.column ≠ indent then some (chomp.tail ending breaks, c)
      else do
        let toBlank := isBlank first
        let line := c.rest.takeWhile fun c => !isBreak c
        let after := c.past line.length
        let start := after.pastBreak
        let (more, _, next) ← emptyLines indent [] 0 start.line start.column start.rest
        let (text, last) ← readLines folded chomp indent fuel toBlank (after.rest.take 1) more next
        return (between folded fromBlank toBlank ending breaks ++ line ++ text, last)

def readBlock (least : Nat) (c : Cursor) : Option (List Char × Cursor) := do
  let folded := c.rest.head? == some '>'
  let (header, rest) ← readHeader (c.rest.drop 1)
  let start ← endHeader { c with rest, column := c.column + 1 }
  let indent := if header.indent = 0 then 0 else least - 1 + header.indent
  let (breaks, most, first) ← emptyLines indent [] 0 start.line start.column start.rest
  let indent := if indent = 0 then max most (max least 1) else indent
  readLines folded header.chomp indent (start.rest.length + 1) false [] breaks first

end TenantQuery.Yaml
