import TenantQuery.Json.Canonical
import TenantQuery.Number.Word

namespace TenantQuery.Json

/-- What a place holds after a value is written to it, given the values written to it before, the
latest first. Each of those was taken without fault. -/
abbrev Slot (α : Type) := List Json → Json → Except Error α

def foldChar (c : Char) : Char :=
  if c = '\u017f' then 's' else if c = '\u212a' then 'k' else c.toLower

def foldName (s : String) : String :=
  String.ofList (s.toList.map foldChar)

def toInt64? (literal : String) : Option Int :=
  if isFractional literal then none
  else
    let (minus, digits) := Decimal.takeSign literal.toList
    let n : Int := Decimal.natOf digits
    let n := if minus then -n else n
    if Word.Holds n then some n else none

def readText : Json → Except Error String
  | .string s => .ok s
  | _ => .error .mistyped

def readFlag : Json → Except Error Bool
  | .bool b => .ok b
  | _ => .error .mistyped

def readInt : Json → Except Error Int
  | .number literal =>
    match toInt64? literal with
    | some n => .ok n
    | none => .error .mistyped
  | _ => .error .mistyped

def readDouble : Json → Except Error Double
  | .number literal =>
    match toDouble? literal with
    | some x => .ok x
    | none => .error .mistyped
  | _ => .error .mistyped

namespace Slot

/-- Null leaves the place as it is, which is `start` at first. -/
def kept (start : α) (read : Json → Except Error α) : Slot α
  | earlier, .null =>
    match earlier.find? (! ·.isNull) with
    | some j => read j
    | none => .ok start
  | _, j => read j

def text : Slot String := kept "" readText

def flag : Slot Bool := kept false readFlag

def int : Slot Int := kept 0 readInt

def double : Slot Double := kept Double.zero readDouble

def optional (slot : Slot α) : Slot (Option α)
  | _, .null => .ok none
  | earlier, j => (slot (earlier.takeWhile (! ·.isNull)) j).map some

def fresh (read : Json → Except Error α) : Slot α :=
  fun _ j => read j

def optionalFresh (read : Json → Except Error α) : Slot (Option α) :=
  optional (fresh read)

def raw : Slot (Option Json) :=
  fun _ j => .ok (some j)

def itemsOf? : Json → Option (List Json)
  | .array (j :: js) => some (j :: js)
  | _ => none

def arraysOf : List Json → List (List Json)
  | [] => []
  | j :: js =>
    match itemsOf? j with
    | some items => items :: arraysOf js
    | none => []

def items (slot : Slot α) : List (List Json) → List Json → Except Error (List α)
  | _, [] => .ok []
  | earlier, j :: js => do
    let a ← slot (earlier.filterMap List.head?) j
    return a :: (← items slot (earlier.map List.tail) js)

/-- Items are written to the places of the list one by one. A place keeps what was written to it
while the list was longer. -/
def list (slot : Slot α) : Slot (Option (List α))
  | _, .null => .ok none
  | earlier, .array js => (items slot (arraysOf earlier) js).map some
  | _, _ => .error .mistyped

def rawItems : Slot (Option (List Json)) :=
  list fun _ j => .ok j

end Slot

def insertSorted (key : String) (value : α) : List (String × α) → List (String × α)
  | [] => [(key, value)]
  | m :: rest =>
    if m.1 = key then (key, value) :: rest
    else if Text.codesLe key m.1 then (key, value) :: m :: rest
    else m :: insertSorted key value rest

def sortMembers (members : List (String × α)) : List (String × α) :=
  members.foldl (fun sorted m => insertSorted m.1 m.2 sorted) []

def membersOf : List Json → List (String × Json)
  | [] => []
  | .object members :: earlier => membersOf earlier ++ members
  | _ :: earlier => membersOf earlier

namespace Slot

def entries (slot : Slot α) : List (String × Json) → Except Error (List (String × α))
  | [] => .ok []
  | (key, j) :: rest => do
    let a ← slot [] j
    return (key, a) :: (← entries slot rest)

def map (slot : Slot α) : Slot (Option (List (String × α))) :=
  optional fun earlier j =>
    match j with
    | .object members => (entries slot (membersOf earlier ++ members)).map sortMembers
    | _ => .error .mistyped

end Slot

mutual

def plain : Json → Except Error Json
  | .number literal =>
    match toDouble? literal with
    | some x => .ok (.number (String.ofList (Layout.document.write x)))
    | none => .error .mistyped
  | .array items => (plainItems items).map .array
  | .object members => (plainMembers members).map fun ms => .object (sortMembers ms)
  | j => .ok j

def plainItems : List Json → Except Error (List Json)
  | [] => .ok []
  | j :: js => do
    let a ← plain j
    return a :: (← plainItems js)

def plainMembers : List (String × Json) → Except Error (List (String × Json))
  | [] => .ok []
  | (key, j) :: rest => do
    let a ← plain j
    return (key, a) :: (← plainMembers rest)

end

def Slot.any : Slot Json :=
  Slot.fresh plain

/-- One field of a record, by the name of the member that holds it. -/
structure Member (σ : Type) where
  name : String
  -- Writes a value to the field, given the values written to it before.
  write : List Json → Json → σ → Except Error σ

namespace Member

def of (name : String) (slot : Slot α) (set : σ → α → σ) : Member σ :=
  ⟨name, fun earlier j s => (slot earlier j).map (set s)⟩

def lift (get : σ → τ) (set : σ → τ → σ) (member : Member τ) : Member σ :=
  ⟨member.name, fun earlier j s => (member.write earlier j (get s)).map (set s)⟩

end Member

def member? (fields : List (Member σ)) (key : String) : Option (Member σ) :=
  fields.find? fun f => foldName f.name = foldName key

def valuesOf (name : String) (written : List (String × Json)) : List Json :=
  written.filterMap fun (field, j) => if field = name then some j else none

/-- Writes members to the fields of a record, of which some were `written` before, the latest
first. Members of other names are passed over. -/
def readFields (fields : List (Member σ)) :
    List (String × Json) → σ → List (String × Json) → Except Error σ
  | _, s, [] => .ok s
  | written, s, (key, j) :: rest =>
    match member? fields key with
    | none => readFields fields written s rest
    | some f => do
      let s' ← f.write (valuesOf f.name written) j s
      readFields fields ((f.name, j) :: written) s' rest

namespace Slot

def record (fields : List (Member σ)) (start : σ) : Slot σ
  | earlier, .null => readFields fields [] start (membersOf earlier)
  | earlier, .object members => readFields fields [] start (membersOf earlier ++ members)
  | _, _ => .error .mistyped

end Slot

def readWith (slot : Slot α) (j : Json) : Except Error α :=
  slot [] j

def readRecord (fields : List (Member σ)) (start : σ) (j : Json) : Except Error σ :=
  readWith (Slot.record fields start) j

def readName (subject : String) (known : String → Option α) (j : Json) : Except Error α := do
  let name ← (readWith Slot.text j).mapError (.within subject)
  match known name with
  | some a => return a
  | none => throw (.unknownValue subject name)

def ifSome (name : String) (encode : α → Json) (value : Option α) : List (String × Json) :=
  match value with
  | some a => [(name, encode a)]
  | none => []

def ifAny (name : String) (encode : α → Json) (value : Option (List α)) : List (String × Json) :=
  match value with
  | some (a :: as) => [(name, .array ((a :: as).map encode))]
  | _ => []

def ifText (name : String) (value : String) : List (String × Json) :=
  if value = "" then [] else [(name, .string value)]

def listOrNull (encode : α → Json) : Option (List α) → Json
  | some as => .array (as.map encode)
  | none => .null

def ofDouble (x : Double) : Json :=
  .number (String.ofList (Layout.document.write x))

end TenantQuery.Json
