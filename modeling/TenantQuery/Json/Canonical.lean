import TenantQuery.Digest.Sha256
import TenantQuery.Json.Reader
import TenantQuery.Json.Writer
import TenantQuery.Number.Layout
import TenantQuery.Text.Normal
import TenantQuery.Text.Units
import TenantQuery.Text.Utf8

namespace TenantQuery.Json

def isFractional (literal : String) : Bool :=
  literal.toList.any fun c => c == '.' || c == 'e' || c == 'E'

def toDouble? (literal : String) : Option Double :=
  (Decimal.read? literal.toList).bind Decimal.toDouble?

def canonicalDouble (x : Double) : String :=
  if x.isZero then "0"
  else if x.isWhole ∧ x.num < Nat.pow 10 21 * x.den then
    String.ofList (Layout.canonicalWhole.write x)
  else String.ofList (Layout.canonical.write x)

def canonicalNumber (literal : String) : Except Error String :=
  if isFractional literal then
    match toDouble? literal with
    | some x => .ok (canonicalDouble x)
    | none => .error (.outOfRange literal)
  else if literal = "-0" then .ok "0"
  else .ok literal

def lineEscape : List UInt8 :=
  [0x5c, 0x75, 0x32, 0x30, 0x32]

def occurs (part : List UInt8) : List UInt8 → Bool
  | [] => part.isEmpty
  | b :: rest => part.isPrefixOf (b :: rest) || occurs part rest

/-- Puts the line ends back in place of their escapes. Any other backslash is copied together with
the octet after it, so that a backslash that is itself escaped begins no escape. -/
def unescapeLines : List UInt8 → List UInt8
  | 0x5c :: 0x75 :: 0x32 :: 0x30 :: 0x32 :: 0x38 :: rest => 0xe2 :: 0x80 :: 0xa8 :: unescapeLines rest
  | 0x5c :: 0x75 :: 0x32 :: 0x30 :: 0x32 :: 0x39 :: rest => 0xe2 :: 0x80 :: 0xa9 :: unescapeLines rest
  | 0x5c :: b :: rest => 0x5c :: b :: unescapeLines rest
  | b :: rest => b :: unescapeLines rest
  | [] => []

def canonicalOctets (s : String) : List UInt8 :=
  let octets := Text.octets (String.ofList (writeString escapeLines (Text.normal s) []))
  if occurs lineEscape octets then unescapeLines octets else octets

def canonicalString (s : String) : List Char :=
  Text.Utf8.decode (canonicalOctets s)

def writeCanonical (j : Json) : String :=
  String.ofList (j.write (fun s rest => canonicalString s ++ rest) [])

def repeated? : List String → Option String
  | [] => none
  | key :: rest => if rest.contains key then some key else repeated? rest

def insertByUnits (m : String × α) : List (String × α) → List (String × α)
  | [] => [m]
  | n :: rest => if Text.unitsLe m.1 n.1 then m :: n :: rest else n :: insertByUnits m rest

def sortByUnits : List (String × α) → List (String × α)
  | [] => []
  | m :: rest => insertByUnits m (sortByUnits rest)

/-- Members under composed keys, without nulls, in order of 16-bit units. The values come with the
outcome of putting them into normal form. -/
def arrange (members : List (String × Except Error Json)) :
    Except Error (List (String × Except Error Json)) :=
  let kept := (lastWins members).filter fun m =>
    match m.2 with
    | .ok .null => false
    | _ => true
  let named := kept.map fun m => (Text.normal m.1, m.2)
  match repeated? (named.map (·.1)) with
  | some key => .error (.duplicateKey key)
  | none => .ok (sortByUnits named)

def settleMembers :
    List (String × Except Error Json) → Except Error (List (String × Json))
  | [] => .ok []
  | (key, .ok value) :: rest => (settleMembers rest).map ((key, value) :: ·)
  | (key, .error cause) :: _ => .error (.within ("value for key " ++ Text.quote key) cause)

mutual

/-- Nulls are dropped from objects but not from arrays. -/
def normalForm : Json → Except Error Json
  | .null => .ok .null
  | .bool b => .ok (.bool b)
  | .number literal => (canonicalNumber literal).map .number
  | .string s => .ok (.string (Text.normal s))
  | .array items => (normalItems 0 items).map .array
  | .object members => do
    let arranged ← arrange (normalMembers members)
    return .object (← settleMembers arranged)

def normalItems : (index : Nat) → List Json → Except Error (List Json)
  | _, [] => .ok []
  | index, item :: items => do
    let item ← (normalForm item).mapError (.within ("array[" ++ toString index ++ "]"))
    return item :: (← normalItems (index + 1) items)

def normalMembers : List (String × Json) → List (String × Except Error Json)
  | [] => []
  | (key, value) :: members => (key, normalForm value) :: normalMembers members

end

def canonical (j : Json) : Except Error String :=
  -- A value that nests more deeply than a text may cannot be written.
  if maxDepth < j.depth then .error .unencodable else j.normalForm.map writeCanonical

/-- The canonical form of a text. Only the first value of a longer text is looked at before the rest
is refused. -/
def canonicalize (text : String) : Except Error String :=
  if (skipSpace text.toList).isEmpty then .error (.within "canonicalize" .endOfInput)
  else
    match readFirst text.toList with
    | none => .error (.within "canonicalize" .malformed)
    | some (value, rest) =>
      if (skipSpace rest).isEmpty then value.canonical else .error .trailingData

def queryDomain : String := "tdq/query/v1"

def precompiledDomain : String := "tdq/precompiled/v1"

def hash (domain : String) (j : Json) : Except Error String :=
  (j.canonical.map (Digest.tagged domain)).mapError (.within ("hash " ++ domain))

def ofRaw (text : String) : Except Error Json :=
  (parse text).mapError fun _ => .unencodable

def hashText (domain text : String) : Except Error String :=
  (ofRaw text).mapError (.within ("hash " ++ domain)) >>= hash domain

def equalTexts (a b : String) : Except Error Bool := do
  let a ← (← ofRaw a).canonical
  let b ← (← ofRaw b).canonical
  return a = b

end TenantQuery.Json
