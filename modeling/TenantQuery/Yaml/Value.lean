import TenantQuery.Json.Record
import TenantQuery.Yaml.Scalar

namespace TenantQuery.Yaml

inductive Value where
  | scalar (value : Scalar)
  | list (items : List Value)
  | map (entries : List (Scalar × Value))
deriving Inhabited

namespace Scalar

/-- Two keys are one; a number that is none is no key but itself. -/
def sameKey : Scalar → Scalar → Bool
  | .double x, .double y => !x.isNaN && (x == y || (x.isZero && y.isZero))
  | a, b => a == b

def toJson : Scalar → Except Error Json
  | .null => .ok .null
  | .flag b => .ok (.bool b)
  | .int n => .ok (.ofInt n)
  | .double x => if x.isFinite then .ok (Json.ofDouble x) else .error .unencodable
  | .time t => t.encode
  | .text s => .ok (.string s)

def memberName (key : Scalar) : Except Error String := do
  match key, ← key.toJson with
  | .int _, .number s => return s
  | _, .string s => return s
  | _, _ => throw .unencodable

def showTime (t : ZonedTime) : String :=
  let here : Instant := ⟨t.instant.nanos + t.offset * Calendar.nanosPerSecond⟩
  let zone := (ZonedTime.zoneText t.offset).filter (· != ':')
  let zone := String.ofList (if t.offset = 0 then "+0000".toList else zone)
  String.ofList (Timestamp.dateText here.date ++ ' ' ::
    (Timestamp.clockText (here.timeOfDay / Calendar.nanosPerSecond) ++
      ZonedTime.fractionText here.subsecond.toNat)) ++
    " " ++ zone ++ " " ++ (if t.offset = 0 then "UTC" else zone)

def showDouble (x : Double) : String :=
  if x.isNaN then "NaN"
  else if !x.isFinite then (if x.negative then "-Inf" else "+Inf")
  else String.ofList (Layout.canonical.write x)

def render : Scalar → String
  | .null => "<nil>"
  | .flag b => if b then "true" else "false"
  | .int n => toString n
  | .double x => showDouble x
  | .time t => showTime t
  | .text s => s

def rank : Scalar → Nat
  | .null => 0
  | .int _ => 1
  | .double _ => 2
  | .flag _ => 3
  | .text _ => 4
  | .time _ => 5

def position (x : Double) : Int :=
  if x.negative then -(x.magnitude : Int) else x.magnitude

/-- The order in which the entries of a map are written. -/
def precedes : Scalar → Scalar → Bool
  | .int a, .int b => a < b
  | .double a, .double b => !b.isNaN && (a.isNaN || position a < position b)
  | .flag a, .flag b => !a && b
  | .text a, .text b => a < b
  | .time a, .time b => a.instant.nanos < b.instant.nanos
  | a, b => a.rank < b.rank

end Scalar

def insertBy (precedes : α → α → Bool) (a : α) : List α → List α
  | [] => [a]
  | b :: rest => if precedes a b then a :: b :: rest else b :: insertBy precedes a rest

def sortBy (precedes : α → α → Bool) (entries : List α) : List α :=
  entries.foldl (fun sorted a => insertBy precedes a sorted) []

namespace Value

def null : Value := .scalar .null

/-- Puts an entry in the place of the one with the same key, or at the end. -/
def put (key : Scalar) (value : Value) : List (Scalar × Value) → List (Scalar × Value)
  | [] => [(key, value)]
  | e :: rest => if e.1.sameKey key then (key, value) :: rest else e :: put key value rest

mutual

def toJson : Value → Except Error Json
  | .scalar v => v.toJson
  | .list items => (itemsToJson items).map .array
  | .map entries =>
    (entriesToJson entries).map fun ms => .object (sortBy (fun a b => a.1 < b.1) ms)

def itemsToJson : List Value → Except Error (List Json)
  | [] => .ok []
  | v :: vs => do return (← toJson v) :: (← itemsToJson vs)

def entriesToJson : List (Scalar × Value) → Except Error (List (String × Json))
  | [] => .ok []
  | (key, value) :: rest => do
    let name ← key.memberName
    let j ← toJson value
    return (name, j) :: (← entriesToJson rest)

end

mutual

def render : Value → String
  | .scalar v => v.render
  | .list items => "[" ++ " ".intercalate (renderAll items) ++ "]"
  | .map entries =>
    let sorted := sortBy (fun a b => a.1.precedes b.1) (renderEntries entries)
    "map[" ++ " ".intercalate (sorted.map fun (key, value) => key.render ++ ":" ++ value) ++ "]"

def renderAll : List Value → List String
  | [] => []
  | v :: vs => render v :: renderAll vs

def renderEntries : List (Scalar × Value) → List (Scalar × String)
  | [] => []
  | (key, value) :: rest => (key, render value) :: renderEntries rest

end

end Value

end TenantQuery.Yaml
