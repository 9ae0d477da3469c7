import TenantQuery.Json.Lookup
import TenantQuery.Yaml.Record

namespace TenantQuery

inductive Assertion where
  | fieldEquals (path : String) (value : Yaml.Value)
  | fieldAbsent (path : String)
  | fieldCount (path : String) (count : Int)
  | filterContains (filter : Option (List (String × Yaml.Value)))
  | outputNames (names : List String)
  | unknown (type : String)

namespace Assertion

/-- An assertion with the members of every type. -/
structure Wire where
  type : String := ""
  path : String := ""
  value : Yaml.Value := .null
  count : Int := 0
  filter : Option (List (String × Yaml.Value)) := none
  names : Option (List String) := none

def fields : List (Yaml.Member Wire) :=
  [.of "type" Yaml.readText ({ · with type := · }),
   .of "path" Yaml.readText ({ · with path := · }),
   .fresh "value" Yaml.readValue ({ · with value := · }),
   .of "count" Yaml.readInt ({ · with count := · }),
   .fresh "filter" Yaml.readEntries ({ · with filter := · }),
   .fresh "names" Yaml.readTexts ({ · with names := · })]

def ofWire (w : Wire) : Assertion :=
  match w.type with
  | "field_equals" => .fieldEquals w.path w.value
  | "field_absent" => .fieldAbsent w.path
  | "field_count" => .fieldCount w.path w.count
  | "filter_contains" => .filterContains w.filter
  | "output_names" => .outputNames (w.names.getD [])
  | type => .unknown type

def read (n : Yaml.Node) : Yaml.Reading (Option Assertion) := do
  return (← Yaml.readRecord fields {} n).map ofWire

def typeName : Assertion → String
  | .fieldEquals _ _ => "field_equals"
  | .fieldAbsent _ => "field_absent"
  | .fieldCount _ _ => "field_count"
  | .filterContains _ => "filter_contains"
  | .outputNames _ => "output_names"
  | .unknown type => type

def flaw? : Assertion → Option String
  | .fieldEquals path _ => if path = "" then some "path is required for field_equals" else none
  | .fieldAbsent path => if path = "" then some "path is required for field_absent" else none
  | .fieldCount path count =>
    if path = "" then some "path is required for field_count"
    else if count < 0 then some "count must be non-negative for field_count"
    else none
  | .filterContains filter =>
    if (filter.getD []).isEmpty then some "filter is required for filter_contains" else none
  | .outputNames names =>
    if names.isEmpty then some "names list is required for output_names" else none
  | .unknown type =>
    some (if type = "" then "type is required"
      else "unknown assertion type " ++ Text.quote type)

/-- Why an assertion does not hold. -/
inductive Failure where
  | unmet (type path expected actual : String)
  | unusable (cause : Error)
  | unknownType (type : String)

def Failure.message : Failure → String
  | .unmet type path expected actual =>
    "Assertion failed: " ++ type ++ (if path = "" then "" else " at " ++ path) ++
      "\n  Expected: " ++ expected ++ "\n  Actual: " ++ actual
  | .unusable cause => cause.message
  | .unknownType type => "unknown assertion type " ++ Text.quote type

def normalize (j : Except Error Json) : Except Error Json :=
  (j >>= Json.readWith Json.Slot.any).mapError (.within "assertion value")

def describe (v : Yaml.Value) : String :=
  match v.toJson with
  | .ok j => j.encode
  | .error _ => v.render

def entriesJson (filter : Option (List (String × Yaml.Value))) : Except Error Json :=
  match filter with
  | none => .ok .null
  | some entries => do
    let members ← entries.mapM fun e => e.2.toJson.map fun j => (e.1, j)
    return .object (Json.sortMembers members)

def size? : Json → Option Int
  | .array items => some items.length
  | .object members => some members.length
  | _ => none

def noSize : Int := -1

mutual

def anyNode (want : Json) : Json → Bool
  | .object members =>
    Json.includes want (.object members) || anyOperand want members
  | _ => false

def anyOperand (want : Json) : List (String × Json) → Bool
  | [] => false
  | (key, .array items) :: rest =>
    (key = "fields" && anyItem want items) || anyOperand want rest
  | (key, .object members) :: rest =>
    (key = "field" && anyNode want (.object members)) || anyOperand want rest
  | _ :: rest => anyOperand want rest

def anyItem (want : Json) : List Json → Bool
  | [] => false
  | j :: rest => anyNode want j || anyItem want rest

end

def itemsAt (doc : Json) (key : String) : List Json :=
  match doc.lookup? key with
  | some (.array items) => items
  | _ => []

def nameOf? (item : Json) : Option String :=
  match item with
  | .object members =>
    match Json.lastOf members "name" with
    | some (.string name) => some name
    | _ => none
  | _ => none

def outputsOf (doc : Json) : List String :=
  (itemsAt doc "aggregations" ++ itemsAt doc "postAggregations").filterMap nameOf?

def brackets (names : List String) : String :=
  "[" ++ " ".intercalate names ++ "]"

def failure? (doc : Json) : Assertion → Option Failure
  | .fieldEquals path value =>
    match doc.lookup? path with
    | none => some (.unmet "field_equals" path (describe value) "missing")
    | some got =>
      match normalize value.toJson with
      | .error e => some (.unusable e)
      | .ok want =>
        if want.agree got then none
        else some (.unmet "field_equals" path want.encode got.encode)
  | .fieldAbsent path =>
    (doc.lookup? path).map fun got => .unmet "field_absent" path "missing" got.encode
  | .fieldCount path count =>
    let expected := toString count ++ " entries"
    match doc.lookup? path with
    | none => some (.unmet "field_count" path expected "missing")
    | some got =>
      if (size? got).getD noSize = count then none
      else some (.unmet "field_count" path expected got.encode)
  | .filterContains filter =>
    match normalize (entriesJson filter) with
    | .error e => some (.unusable e)
    | .ok want =>
      let root := (doc.lookup? "filter").getD .null
      if anyNode want root then none
      else some (.unmet "filter_contains" "filter" want.encode root.encode)
  | .outputNames names =>
    let missing := names.filter fun name => !(outputsOf doc).contains name
    if missing.isEmpty then none
    else some (.unmet "output_names" "" ("outputs " ++ brackets names)
      ("missing " ++ brackets missing))
  | .unknown type => some (.unknownType type)

/-- One message for every assertion that does not hold, with its position. -/
def failuresFrom (doc : Json) : (index : Nat) → List Assertion → List String
  | _, [] => []
  | i, a :: rest =>
    match a.failure? doc with
    | none => failuresFrom doc (i + 1) rest
    | some f =>
      ("assertions[" ++ toString i ++ "]: " ++ f.message) :: failuresFrom doc (i + 1) rest

def failures (doc : Json) (assertions : List Assertion) : List String :=
  failuresFrom doc 0 assertions

end Assertion

end TenantQuery
