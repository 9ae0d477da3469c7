import TenantQuery.Json.Record

namespace TenantQuery

inductive ItemValue where
  | dimension (text : String)
  | metric (value : Double)
  | null
deriving DecidableEq

namespace ItemValue

/-- A string is a dimension and a number that a double can hold is a metric. Everything else counts
as null. -/
def ofJson : Json → ItemValue
  | .string s => .dimension s
  | .number literal =>
    match Json.toDouble? literal with
    | some x => .metric x
    | none => .null
  | _ => .null

def classify (text : String) : ItemValue :=
  match Json.parse text with
  | .ok j => ofJson j
  | .error _ => .null

def kind : ItemValue → String
  | .dimension _ => "dimension"
  | .metric _ => "metric"
  | .null => "null"

def text? : ItemValue → Option String
  | .dimension s => some s
  | _ => none

def value? : ItemValue → Option Double
  | .metric x => some x
  | _ => none

def encode : ItemValue → Json
  | .dimension s => .string s
  | .metric x => Json.ofDouble x
  | .null => .null

end ItemValue

/-- Dimensions and metrics in order of their keys, and the keys of all other members. -/
structure Item where
  dimensions : List (String × String) := []
  metrics : List (String × Double) := []
  nullKeys : List String := []
deriving DecidableEq

namespace Item

def add (i : Item) : String × ItemValue → Item
  | (key, .dimension s) => { i with dimensions := Json.insertSorted key s i.dimensions }
  | (key, .metric x) => { i with metrics := Json.insertSorted key x i.metrics }
  | (key, .null) => { i with nullKeys := i.nullKeys ++ [key] }

def collect (members : List (String × ItemValue)) : Item :=
  let i := members.foldl add {}
  { i with nullKeys := i.nullKeys.mergeSort Text.codesLe }

/-- The last value of a member counts, and null is an item without members. -/
def read : Json → Except Error Item
  | .null => .ok {}
  | .object members =>
    .ok (collect (Json.sortMembers (members.map fun (key, j) => (key, ItemValue.ofJson j))))
  | _ => .error (.within "result item" .mistyped)

def overwriting (i : Item) : List (String × Json) :=
  i.metrics.map (fun (key, x) => (key, .ofDouble x)) ++
    (i.dimensions.map (fun (key, s) => (key, .string s)) ++
      i.nullKeys.map fun key => (key, .null))

def encode (i : Item) : Json :=
  .object (Json.sortMembers i.overwriting)

def dimension? (i : Item) (key : String) : Option String :=
  i.dimensions.lookup key

def metric? (i : Item) (key : String) : Option Double :=
  i.metrics.lookup key

end Item

end TenantQuery
