import TenantQuery.Extraction

namespace TenantQuery

open Json (Member Slot)

structure PlainDimension where
  dimension : String := ""
  outputName : String := ""
  outputType : Option String := none
deriving DecidableEq

inductive Dimension where
  | plain (d : PlainDimension)
  | extracted (d : PlainDimension) (function : Extraction)
deriving DecidableEq

namespace Dimension

def typeName : Dimension → String
  | .plain _ => "default"
  | .extracted _ _ => "extraction"

def plainMembers (d : PlainDimension) : List (String × Json) :=
  [("dimension", .string d.dimension), ("outputName", .string d.outputName)] ++
    Json.ifSome "outputType" .string d.outputType

def encode : Dimension → Json
  | .plain d => Json.tagged "default" (plainMembers d)
  | .extracted d function =>
    Json.tagged "extraction" (plainMembers d ++ [("extractionFn", function.encode)])

def plainFields : List (Member PlainDimension) :=
  [.of "dimension" Slot.text ({ · with dimension := · }),
   .of "outputName" Slot.text ({ · with outputName := · }),
   .of "outputType" optionalText ({ · with outputType := · })]

structure ExtractedWire where
  plain : PlainDimension := {}
  function : Option Json := none

def extractedFields : List (Member ExtractedWire) :=
  plainFields.map (Member.lift (·.plain) ({ · with plain := · })) ++
  [.of "extractionFn" Slot.raw ({ · with function := · })]

def readExtracted (j : Json) : Except Error Dimension := do
  let wire ← Json.readRecord extractedFields {} j
  return .extracted wire.plain (← Extraction.read wire.function)

def forms : Json.Forms Dimension :=
  [("default", fun j => (Json.readRecord plainFields {} j).map .plain),
   ("extraction", readExtracted)]

/-- A bare string names a dimension that keeps its name. -/
def read : Option Json → Except Error Dimension
  | some (.string name) => .ok (.plain ⟨name, name, none⟩)
  | raw => Json.readNode "dimension" forms raw

end Dimension

inductive Metric where
  | numeric (metric : String)
  | dimension (ordering previousStop : Option String)
  | inverted (metric : Metric)
deriving DecidableEq

namespace Metric

def typeName : Metric → String
  | .numeric _ => "numeric"
  | .dimension _ _ => "dimension"
  | .inverted _ => "inverted"

def encode : Metric → Json
  | .numeric metric => Json.tagged "numeric" [("metric", .string metric)]
  | .dimension ordering previousStop =>
    Json.tagged "dimension"
      (Json.ifSome "ordering" .string ordering ++ Json.ifSome "previousStop" .string previousStop)
  | .inverted metric => Json.tagged "inverted" [("metric", metric.encode)]

def numericFields : List (Member String) :=
  [.of "metric" Slot.text (fun _ s => s)]

def dimensionFields : List (Member (Option String × Option String)) :=
  [.of "ordering" optionalText (fun s ordering => (ordering, s.2)),
   .of "previousStop" optionalText (fun s stop => (s.1, stop))]

def invertedFields : List (Member (Option Json)) :=
  [.of "metric" Slot.raw (fun _ s => s)]

def forms (inner : Option Json → Except Error Metric) : Json.Forms Metric :=
  [("numeric", fun j => (Json.readRecord numericFields "" j).map .numeric),
   ("dimension", fun j =>
      (Json.readRecord dimensionFields (none, none) j).map fun (o, p) => .dimension o p),
   ("inverted", fun j => do return .inverted (← inner (← Json.readRecord invertedFields none j)))]

/-- Reads a ranking that nests less than `fuel` deep. A bare string names a metric. -/
def readWithin : (fuel : Nat) → Option Json → Except Error Metric
  | 0, _ => .error .malformed
  | _ + 1, some (.string metric) => .ok (.numeric metric)
  | fuel + 1, raw => Json.readNode "metric" (forms (readWithin fuel)) raw

def read (raw : Option Json) : Except Error Metric :=
  readWithin (Json.depthOf raw + 1) raw

end Metric

def bareText? (text : String) : Option String :=
  match Json.parse (Text.trim text) with
  | .ok (.string s) => some s
  | _ => none

def Dimension.parse (text : String) : Except Error Dimension :=
  match bareText? text with
  | some name => Dimension.read (some (.string name))
  | none => Json.parseNode "dimension" Dimension.read text

def Metric.parse (text : String) : Except Error Metric :=
  match bareText? text with
  | some name => Metric.read (some (.string name))
  | none => Json.parseNode "metric" Metric.read text

end TenantQuery
