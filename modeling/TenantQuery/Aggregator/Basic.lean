import TenantQuery.Filter.Basic

namespace TenantQuery

open Json (Member Slot)

inductive ColumnKind where
  | longSum | doubleSum | floatSum
  | longMin | longMax | doubleMin | doubleMax | floatMin | floatMax
  | longFirst | longLast | doubleFirst | doubleLast | stringFirst | stringLast
deriving DecidableEq

namespace ColumnKind

def name : ColumnKind → String
  | .longSum => "longSum"
  | .doubleSum => "doubleSum"
  | .floatSum => "floatSum"
  | .longMin => "longMin"
  | .longMax => "longMax"
  | .doubleMin => "doubleMin"
  | .doubleMax => "doubleMax"
  | .floatMin => "floatMin"
  | .floatMax => "floatMax"
  | .longFirst => "longFirst"
  | .longLast => "longLast"
  | .doubleFirst => "doubleFirst"
  | .doubleLast => "doubleLast"
  | .stringFirst => "stringFirst"
  | .stringLast => "stringLast"

def every : List ColumnKind :=
  [.longSum, .doubleSum, .floatSum, .longMin, .longMax, .doubleMin, .doubleMax, .floatMin,
   .floatMax, .longFirst, .longLast, .doubleFirst, .doubleLast, .stringFirst, .stringLast]

end ColumnKind

structure Column where
  name : String := ""
  fieldName : String := ""
deriving DecidableEq

structure ThetaSketch where
  name : String := ""
  fieldName : String := ""
  isInputThetaSketch : Option Bool := none
  size : Option Int := none
  shouldFinalize : Option Bool := none
deriving DecidableEq

structure HyperUnique where
  name : String := ""
  fieldName : String := ""
  isInputHyperUnique : Option Bool := none
  round : Option Bool := none
deriving DecidableEq

structure Cardinality where
  name : String := ""
  fields : Option (List String) := none
  byRow : Option Bool := none
  round : Option Bool := none
deriving DecidableEq

structure QuantilesSketch where
  name : String := ""
  fieldName : String := ""
  k : Option Int := none
  maxStreamLength : Option Int := none
  shouldFinalize : Option Bool := none
deriving DecidableEq

/-- Bins given by the points between them or by their number. -/
structure Bins where
  splitPoints : Option (List Double) := none
  numBins : Option Int := none
deriving DecidableEq

structure Histogram where
  name : Option String := none
  bins : Bins := {}
deriving DecidableEq

inductive Aggregator where
  | count (name : String)
  | column (kind : ColumnKind) (a : Column)
  | thetaSketch (a : ThetaSketch)
  | hyperUnique (a : HyperUnique)
  | cardinality (a : Cardinality)
  | quantilesSketch (a : QuantilesSketch)
  | filtered (filter : Filter) (inner : Aggregator) (name : Option String)
  | userCount (name : Option String)
  | eventCount (name : Option String)
  | histogram (a : Histogram)

namespace Aggregator

instance : Inhabited Aggregator := ⟨.count ""⟩

def typeName : Aggregator → String
  | .count _ => "count"
  | .column kind _ => kind.name
  | .thetaSketch _ => "thetaSketch"
  | .hyperUnique _ => "hyperUnique"
  | .cardinality _ => "cardinality"
  | .quantilesSketch _ => "quantilesDoublesSketch"
  | .filtered _ _ _ => "filtered"
  | .userCount _ => "userCount"
  | .eventCount _ => "eventCount"
  | .histogram _ => "histogram"

/-- A filtered aggregator without a name of its own has that of the one inside. -/
def outputName : Aggregator → String
  | .count name => name
  | .column _ a => a.name
  | .thetaSketch a => a.name
  | .hyperUnique a => a.name
  | .cardinality a => a.name
  | .quantilesSketch a => a.name
  | .filtered _ _ (some name) => name
  | .filtered _ inner none => inner.outputName
  | .userCount name => name.getD "Users"
  | .eventCount name => name.getD "Events"
  | .histogram a => a.name.getD "Histogram"

def isConvenience : Aggregator → Bool
  | .userCount _ | .eventCount _ | .histogram _ => true
  | _ => false

def columnMembers (name fieldName : String) : List (String × Json) :=
  [("name", .string name), ("fieldName", .string fieldName)]

def binMembers (bins : Bins) : List (String × Json) :=
  Json.ifAny "splitPoints" Json.ofDouble bins.splitPoints ++
    Json.ifSome "numBins" Json.ofInt bins.numBins

def encode : Aggregator → Json
  | .count name => Json.tagged "count" [("name", .string name)]
  | .column kind a => Json.tagged kind.name (columnMembers a.name a.fieldName)
  | .thetaSketch a =>
    Json.tagged "thetaSketch" (columnMembers a.name a.fieldName ++
      Json.ifSome "isInputThetaSketch" .bool a.isInputThetaSketch ++
      Json.ifSome "size" Json.ofInt a.size ++
      Json.ifSome "shouldFinalize" .bool a.shouldFinalize)
  | .hyperUnique a =>
    Json.tagged "hyperUnique" (columnMembers a.name a.fieldName ++
      Json.ifSome "isInputHyperUnique" .bool a.isInputHyperUnique ++
      Json.ifSome "round" .bool a.round)
  | .cardinality a =>
    Json.tagged "cardinality"
      ([("name", .string a.name), ("fields", Json.listOrNull .string a.fields)] ++
       Json.ifSome "byRow" .bool a.byRow ++ Json.ifSome "round" .bool a.round)
  | .quantilesSketch a =>
    Json.tagged "quantilesDoublesSketch" (columnMembers a.name a.fieldName ++
      Json.ifSome "k" Json.ofInt a.k ++
      Json.ifSome "maxStreamLength" Json.ofInt a.maxStreamLength ++
      Json.ifSome "shouldFinalize" .bool a.shouldFinalize)
  | .filtered filter inner name =>
    Json.tagged "filtered"
      ([("filter", filter.encode), ("aggregator", inner.encode)] ++ Json.ifSome "name" .string name)
  | .userCount name => Json.tagged "userCount" (Json.ifSome "name" .string name)
  | .eventCount name => Json.tagged "eventCount" (Json.ifSome "name" .string name)
  | .histogram a =>
    Json.tagged "histogram" (Json.ifSome "name" .string a.name ++ binMembers a.bins)

def nameFields : List (Member String) :=
  [.of "name" Slot.text (fun _ s => s)]

def optionalNameFields : List (Member (Option String)) :=
  [.of "name" optionalText (fun _ s => s)]

def columnFields : List (Member Column) :=
  [.of "name" Slot.text ({ · with name := · }),
   .of "fieldName" Slot.text ({ · with fieldName := · })]

def thetaSketchFields : List (Member ThetaSketch) :=
  [.of "name" Slot.text ({ · with name := · }),
   .of "fieldName" Slot.text ({ · with fieldName := · }),
   .of "isInputThetaSketch" optionalFlag
     ({ · with isInputThetaSketch := · }),
   .of "size" optionalInt ({ · with size := · }),
   .of "shouldFinalize" optionalFlag ({ · with shouldFinalize := · })]

def hyperUniqueFields : List (Member HyperUnique) :=
  [.of "name" Slot.text ({ · with name := · }),
   .of "fieldName" Slot.text ({ · with fieldName := · }),
   .of "isInputHyperUnique" optionalFlag
     ({ · with isInputHyperUnique := · }),
   .of "round" optionalFlag ({ · with round := · })]

def cardinalityFields : List (Member Cardinality) :=
  [.of "name" Slot.text ({ · with name := · }),
   .of "fields" texts ({ · with fields := · }),
   .of "byRow" optionalFlag ({ · with byRow := · }),
   .of "round" optionalFlag ({ · with round := · })]

def quantilesSketchFields : List (Member QuantilesSketch) :=
  [.of "name" Slot.text ({ · with name := · }),
   .of "fieldName" Slot.text ({ · with fieldName := · }),
   .of "k" optionalInt ({ · with k := · }),
   .of "maxStreamLength" optionalInt ({ · with maxStreamLength := · }),
   .of "shouldFinalize" optionalFlag ({ · with shouldFinalize := · })]

def binFields : List (Member Bins) :=
  [.of "splitPoints" doubles ({ · with splitPoints := · }),
   .of "numBins" optionalInt ({ · with numBins := · })]

def histogramFields : List (Member Histogram) :=
  .of "name" optionalText ({ · with name := · }) ::
    binFields.map (Member.lift (·.bins) ({ · with bins := · }))

structure FilteredWire where
  filter : Option Json := none
  inner : Option Json := none
  name : Option String := none

def filteredFields : List (Member FilteredWire) :=
  [.of "filter" Slot.raw ({ · with filter := · }),
   .of "aggregator" Slot.raw ({ · with inner := · }),
   .of "name" optionalText ({ · with name := · })]

def forms (inner : Option Json → Except Error Aggregator) : Json.Forms Aggregator :=
  ColumnKind.every.map (fun kind =>
    (kind.name, fun j => (Json.readRecord columnFields {} j).map (.column kind))) ++
  [("count", fun j => (Json.readRecord nameFields "" j).map .count),
   ("thetaSketch", fun j => (Json.readRecord thetaSketchFields {} j).map .thetaSketch),
   ("hyperUnique", fun j => (Json.readRecord hyperUniqueFields {} j).map .hyperUnique),
   ("cardinality", fun j => (Json.readRecord cardinalityFields {} j).map .cardinality),
   ("quantilesDoublesSketch", fun j =>
      (Json.readRecord quantilesSketchFields {} j).map .quantilesSketch),
   ("filtered", fun j => do
      let wire ← Json.readRecord filteredFields {} j
      let filter ← Filter.read wire.filter
      return .filtered filter (← inner wire.inner) wire.name),
   ("userCount", fun j => (Json.readRecord optionalNameFields none j).map .userCount),
   ("eventCount", fun j => (Json.readRecord optionalNameFields none j).map .eventCount),
   ("histogram", fun j => (Json.readRecord histogramFields {} j).map .histogram)]

def readWithin : (fuel : Nat) → Option Json → Except Error Aggregator
  | 0, _ => .error .malformed
  | fuel + 1, raw => Json.readNode "aggregator" (forms (readWithin fuel)) raw

def read (raw : Option Json) : Except Error Aggregator :=
  readWithin (Json.depthOf raw + 1) raw

def parse (text : String) : Except Error Aggregator :=
  Json.parseNode "aggregator" read text

end Aggregator

end TenantQuery
