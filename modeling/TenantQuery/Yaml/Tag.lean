import TenantQuery.Text.Hex
import TenantQuery.Text.Utf8
import TenantQuery.Yaml.Cursor

namespace TenantQuery.Yaml

inductive Tag where
  | null
  | bool
  | int
  | float
  | timestamp
  | str
  | binary
  | merge
  | other (name : String)
deriving DecidableEq

namespace Tag

def standard : String := "tag:yaml.org,2002:"

def ofName (name : String) : Tag :=
  let long := name.toList
  let short :=
    if standard.toList.isPrefixOf long then "!!" ++ String.ofList (long.drop standard.length)
    else name
  match short with
  | "!!null" => .null
  | "!!bool" => .bool
  | "!!int" => .int
  | "!!float" => .float
  | "!!timestamp" => .timestamp
  | "!!str" => .str
  | "!!binary" => .binary
  | "!!merge" => .merge
  | _ => .other short

end Tag

def isNameChar (c : Char) : Bool :=
  c.isAlphanum || c == '-' || c == '_'

def endsName : List Char → Bool
  | [] => true
  | c :: rest => endsWord (c :: rest) || "?:,]\x7d%@`".toList.contains c

def readName (rest : List Char) : Option (List Char) :=
  let name := rest.takeWhile isNameChar
  if name.isEmpty || !endsName (rest.drop name.length) then none else some name

def isTagChar (c : Char) : Bool :=
  isNameChar c || ";/?:@&=+$,.!~*'()[]".toList.contains c

def sequenceLength (b : UInt8) : Nat :=
  if b < 0x80 then 1
  else if b < 0xc0 then 0
  else if b < 0xe0 then 2
  else if b < 0xf0 then 3
  else if b < 0xf8 then 4
  else 0

/-- The octets of a name of a tag and the number of its characters. Octets may be written in
hexadecimal after a percent sign; `due` of them have to follow. -/
def readTagName : (due : Nat) → List Char → Option (List UInt8 × Nat)
  | due, '%' :: a :: b :: rest => do
    let octet := UInt8.ofNat (16 * (← Text.Hex.value? a) + (← Text.Hex.value? b))
    let length := if due = 0 then sequenceLength octet else due
    if length = 0 ∨ (due ≠ 0 ∧ !Text.Utf8.isTail octet) then none
    let (octets, n) ← readTagName (length - 1) rest
    return (octet :: octets, n + 3)
  | 0, c :: rest =>
    if c = '%' then none
    else if isTagChar c then do
      let (octets, n) ← readTagName 0 rest
      return (UInt8.ofNat c.toNat :: octets, n + 1)
    else some ([], 0)
  | 0, [] => some ([], 0)
  | _ + 1, _ => none

def readTagText (rest : List Char) : Option (String × Nat) := do
  let (octets, n) ← readTagName 0 rest
  return (Text.ofOctets octets, n)

def readHandle : List Char → List Char
  | '!' :: rest =>
    let name := rest.takeWhile isNameChar
    '!' :: (name ++ if (rest.drop name.length).head? == some '!' then ['!'] else [])
  | _ => []

/-- A handle, empty where the rest is the full name, and the rest of a tag. -/
structure WrittenTag where
  handle : String
  suffix : String

def readFullTag (rest : List Char) : Option (WrittenTag × Nat) := do
  let (name, n) ← readTagText rest
  if n = 0 then none
  else if (rest.drop n).head? == some '>' then return (⟨"", name⟩, n + 3)
  else none

def readShortTag (text : List Char) : Option (WrittenTag × Nat) := do
  let handle := readHandle text
  let (suffix, n) ← readTagText (text.drop handle.length)
  if 1 < handle.length ∧ handle.getLast? = some '!' then
    if n = 0 then none else return (⟨String.ofList handle, suffix⟩, handle.length + n)
  else
    let suffix := String.ofList (handle.drop 1) ++ suffix
    return (if suffix = "" then ⟨"", "!"⟩ else ⟨"!", suffix⟩, handle.length + n)

def readTag (text : List Char) : Option (WrittenTag × Nat) := do
  let (tag, n) ←
    match text with
    | '!' :: '<' :: rest => readFullTag rest
    | _ => readShortTag text
  if endsWord (text.drop n) then return (tag, n) else none

inductive Directive where
  | version (major minor : Nat)
  | handle (name stem : String)

def readVersionPart (cs : List Char) : Option (Nat × List Char) :=
  let digits := cs.takeWhile Char.isDigit
  if digits.isEmpty || 2 < digits.length then none
  else some (digits.foldl (fun n c => 10 * n + (c.toNat - 48)) 0, cs.drop digits.length)

def readVersion (cs : List Char) : Option (Directive × List Char) := do
  let (major, rest) ← readVersionPart (cs.dropWhile isBlank)
  match rest with
  | '.' :: rest =>
    let (minor, rest) ← readVersionPart rest
    return (.version major minor, rest)
  | _ => none

def readHandleMeaning (cs : List Char) : Option (Directive × List Char) := do
  let cs := cs.dropWhile isBlank
  let handle := readHandle cs
  if handle.getLast? ≠ some '!' then none
  let rest := cs.drop handle.length
  if !(rest.head?.any isBlank) then none
  let rest := rest.dropWhile isBlank
  let (stem, n) ← readTagText rest
  if n = 0 ∨ !endsWord (rest.drop n) then none
  return (.handle (String.ofList handle) stem, rest.drop n)

/-- A directive after its percent sign, and the end of its line. -/
def readDirective (cs : List Char) : Option (Directive × List Char) := do
  let name := cs.takeWhile isNameChar
  let rest := cs.drop name.length
  if !endsWord rest then none
  let (directive, rest) ←
    match String.ofList name with
    | "YAML" => readVersion rest
    | "TAG" => readHandleMeaning rest
    | _ => none
  let rest := rest.dropWhile isBlank
  let rest := if rest.head? == some '#' then lineEnd rest else rest
  if endsLine rest then return (directive, rest) else none

end TenantQuery.Yaml
