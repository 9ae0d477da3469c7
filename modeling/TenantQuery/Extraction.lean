import TenantQuery.Filter.Predicate

namespace TenantQuery

open Json (Member Slot)

inductive Lookup where
  | registered (name : String)
  | inline (entries : Option (List (String × String)))
deriving DecidableEq

namespace Lookup

def typeName : Lookup → String
  | .registered _ => "registeredLookup"
  | .inline _ => "map"

def encode : Lookup → Json
  | .registered name => Json.tagged "registeredLookup" [("lookup", .string name)]
  | .inline none => Json.tagged "map" [("map", .null)]
  | .inline (some entries) =>
    Json.tagged "map" [("map", .object (entries.map fun (k, v) => (k, .string v)))]

def nameFields : List (Member String) :=
  [.of "lookup" Slot.text (fun _ s => s)]

def entryFields : List (Member (Option (List (String × String)))) :=
  [.of "map" (Slot.map Slot.text) (fun _ s => s)]

def forms : Json.Forms Lookup :=
  [("registeredLookup", fun j => (Json.readRecord nameFields "" j).map .registered),
   ("map", fun j => (Json.readRecord entryFields none j).map .inline)]

def read (raw : Option Json) : Except Error Lookup :=
  Json.readNode "lookup" forms raw

def parse (text : String) : Except Error Lookup :=
  Json.parseNode "lookup" read text

end Lookup

/-- Takes a capture group, the first one unless another is named. -/
structure RegexExtraction where
  expr : String := ""
  index : Int := 1
  replaceMissingValue : Bool := false
  replaceMissingValueWith : Option String := none
deriving DecidableEq

structure LookupExtraction where
  lookup : Lookup
  retainMissingValue : Bool
  injective : Bool
  replaceMissingValueWith : Option String
deriving DecidableEq

inductive Extraction where
  | regex (e : RegexExtraction)
  | lookup (e : LookupExtraction)
deriving DecidableEq

namespace Extraction

def typeName : Extraction → String
  | .regex _ => "regex"
  | .lookup _ => "lookup"

def encode : Extraction → Json
  | .regex e =>
    Json.tagged "regex"
      ([("expr", .string e.expr), ("index", .ofInt e.index),
        ("replaceMissingValue", .bool e.replaceMissingValue)] ++
       Json.ifSome "replaceMissingValueWith" .string e.replaceMissingValueWith)
  | .lookup e =>
    Json.tagged "lookup"
      ([("lookup", e.lookup.encode), ("retainMissingValue", .bool e.retainMissingValue),
        ("injective", .bool e.injective)] ++
       Json.ifSome "replaceMissingValueWith" .string e.replaceMissingValueWith)

def regexFields : List (Member RegexExtraction) :=
  [.of "expr" Slot.text ({ · with expr := · }),
   .of "index" (Slot.kept 1 Json.readInt) ({ · with index := · }),
   .of "replaceMissingValue" Slot.flag
     ({ · with replaceMissingValue := · }),
   .of "replaceMissingValueWith" optionalText
     ({ · with replaceMissingValueWith := · })]

structure LookupWire where
  lookup : Option Json := none
  retainMissingValue : Bool := false
  injective : Bool := false
  replaceMissingValueWith : Option String := none

def lookupFields : List (Member LookupWire) :=
  [.of "lookup" Slot.raw ({ · with lookup := · }),
   .of "retainMissingValue" Slot.flag ({ · with retainMissingValue := · }),
   .of "injective" Slot.flag ({ · with injective := · }),
   .of "replaceMissingValueWith" optionalText
     ({ · with replaceMissingValueWith := · })]

def readLookup (j : Json) : Except Error LookupExtraction := do
  let wire ← Json.readRecord lookupFields {} j
  return ⟨← Lookup.read wire.lookup, wire.retainMissingValue, wire.injective,
    wire.replaceMissingValueWith⟩

def forms : Json.Forms Extraction :=
  [("regex", fun j => (Json.readRecord regexFields {} j).map .regex),
   ("lookup", fun j => (readLookup j).map .lookup)]

def read (raw : Option Json) : Except Error Extraction :=
  Json.readNode "extractionFn" forms raw

def parse (text : String) : Except Error Extraction :=
  Json.parseNode "extractionFn" read text

end Extraction

end TenantQuery
