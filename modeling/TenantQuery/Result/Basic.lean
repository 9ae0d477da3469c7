import TenantQuery.Calendar.Zoned
import TenantQuery.Json.Tagged
import TenantQuery.PostAggregator.Evaluation
import TenantQuery.Query.Basic
import TenantQuery.Result.Item

namespace TenantQuery

open Json (Member Slot)

/-- One bucket of a timeseries. A column without value is null. -/
structure TimeseriesRow where
  timestamp : Option ZonedTime := none
  result : Option (List (String × Option Double)) := none
deriving DecidableEq

structure TopNRow where
  timestamp : ZonedTime := .zero
  result : Option (List Item) := none
deriving DecidableEq

structure GroupByRow where
  version : String := ""
  timestamp : ZonedTime := .zero
  event : Item := {}
deriving DecidableEq

structure ColumnSignature where
  name : String := ""
  type : Option String := none
deriving DecidableEq

structure ScanRow where
  segmentId : Option String := none
  columns : Option (List String) := none
  events : Option (List Item) := none
  signature : Option (List ColumnSignature) := none
deriving DecidableEq

structure TimeBoundaryRow where
  timestamp : ZonedTime := .zero
  result : Option (List (String × ZonedTime)) := none
deriving DecidableEq

inductive ResultRows where
  | timeseries (rows : Option (List TimeseriesRow))
  | topN (rows : Option (List TopNRow))
  | groupBy (rows : Option (List GroupByRow))
  | scan (rows : Option (List ScanRow))
  | timeBoundary (rows : Option (List TimeBoundaryRow))
deriving DecidableEq

structure QueryResult where
  restrictions : Option (List Interval) := none
  rows : ResultRows

def TimeseriesRow.fields : List (Member TimeseriesRow) :=
  [.of "timestamp" (Slot.optionalFresh ZonedTime.read) ({ · with timestamp := · }),
   .of "result" (Slot.map (Slot.optional Slot.double))
     ({ · with result := · })]

def Item.slot : Slot (Option (List Item)) :=
  Slot.list (Slot.fresh Item.read)

def TopNRow.fields : List (Member TopNRow) :=
  [.of "timestamp" ZonedTime.slot ({ · with timestamp := · }),
   .of "result" Item.slot ({ · with result := · })]

def GroupByRow.fields : List (Member GroupByRow) :=
  [.of "version" Slot.text ({ · with version := · }),
   .of "timestamp" ZonedTime.slot ({ · with timestamp := · }),
   .of "event" (Slot.fresh Item.read) ({ · with event := · })]

def ColumnSignature.fields : List (Member ColumnSignature) :=
  [.of "name" Slot.text ({ · with name := · }),
   .of "type" optionalText ({ · with type := · })]

def ScanRow.fields : List (Member ScanRow) :=
  [.of "segmentId" optionalText ({ · with segmentId := · }),
   .of "columns" texts ({ · with columns := · }),
   .of "events" Item.slot ({ · with events := · }),
   .of "rowSignature" (Slot.list (Slot.record ColumnSignature.fields {}))
     ({ · with signature := · })]

def TimeBoundaryRow.fields : List (Member TimeBoundaryRow) :=
  [.of "timestamp" ZonedTime.slot ({ · with timestamp := · }),
   .of "result" (Slot.map ZonedTime.slot) ({ · with result := · })]

def rowSlot (zero : ρ) (fields : List (Member ρ)) : Slot (Option (List ρ)) :=
  Slot.list (Slot.record fields zero)

namespace QueryResult

structure Wire (ρ : Type) where
  restrictions : Option (List Interval) := none
  rows : Option (List ρ) := none

def wireFields (zero : ρ) (fields : List (Member ρ)) : List (Member (Wire ρ)) :=
  [.of "restrictions" Interval.slot ({ · with restrictions := · }),
   .of "rows" (rowSlot zero fields) ({ · with rows := · })]

def form (zero : ρ) (fields : List (Member ρ)) (rows : Option (List ρ) → ResultRows) (j : Json) :
    Except Error QueryResult := do
  let wire ← Json.readRecord (wireFields zero fields) {} j
  return ⟨wire.restrictions, rows wire.rows⟩

def forms : Json.Forms QueryResult :=
  [("timeSeriesResult", form {} TimeseriesRow.fields .timeseries),
   ("topNResult", form {} TopNRow.fields .topN),
   ("groupByResult", form {} GroupByRow.fields .groupBy),
   ("scanResult", form {} ScanRow.fields .scan),
   ("timeBoundaryResult", form {} TimeBoundaryRow.fields .timeBoundary)]

def read (raw : Option Json) : Except Error QueryResult :=
  Json.readNode "queryResult" forms raw

def parse (text : String) : Except Error QueryResult :=
  Json.parseNode "queryResult" read text

end QueryResult

namespace Reply

def rows (name : String) (zero : ρ) (fields : List (Member ρ)) (text : String) :
    Except Error (List ρ) :=
  let read : Except Error (Option (List ρ)) :=
    Json.parse text >>= Json.readWith (rowSlot zero fields)
  match read with
  | .error e => .error (.within ("parse " ++ name ++ " response") e)
  | .ok rows => .ok (rows.getD [])

def timeseries (text : String) : Except Error (List TimeseriesRow) :=
  rows "timeseries" {} TimeseriesRow.fields text

/-- The reply to a query of the named type. A virtual query has been expanded to groups. -/
def parse (queryType text : String) : Except Error QueryResult :=
  match QueryType.ofName? queryType with
  | none => .error (.compile (.noReplyReader queryType))
  | some .timeseries => (timeseries text).map fun rs => ⟨none, .timeseries (some rs)⟩
  | some .topN => (rows "topN" {} TopNRow.fields text).map fun rs => ⟨none, .topN (some rs)⟩
  | some .scan => (rows "scan" {} ScanRow.fields text).map fun rs => ⟨none, .scan (some rs)⟩
  | some .timeBoundary =>
    (rows "timeBoundary" {} TimeBoundaryRow.fields text).map fun rs =>
      ⟨none, .timeBoundary (some rs)⟩
  | some .groupBy | some .funnel | some .retention | some .experiment =>
    (rows "groupBy" {} GroupByRow.fields text).map fun rs => ⟨none, .groupBy (some rs)⟩

end Reply

def TimeseriesRow.values (r : TimeseriesRow) : Row :=
  Row.ofList ((r.result.getD []).filterMap fun (name, x) => x.map fun x => (name, x.toFloat))

def TimeseriesRow.encode (r : TimeseriesRow) : Except Error Json := do
  let timestamp ← r.timestamp.mapM ZonedTime.encode
  let result : Json :=
    match r.result with
    | none => .null
    | some columns => .object (columns.map fun (name, x) => (name, (x.map Json.ofDouble).getD .null))
  return .object (Json.ifSome "timestamp" id timestamp ++ [("result", result)])

def TopNRow.encode (r : TopNRow) : Except Error Json := do
  return .object [("timestamp", ← r.timestamp.encode),
    ("result", Json.listOrNull Item.encode r.result)]

def GroupByRow.encode (r : GroupByRow) : Except Error Json := do
  return .object [("version", .string r.version), ("timestamp", ← r.timestamp.encode),
    ("event", r.event.encode)]

def ColumnSignature.encode (c : ColumnSignature) : Json :=
  .object (("name", .string c.name) :: Json.ifSome "type" .string c.type)

def ScanRow.encode (r : ScanRow) : Except Error Json :=
  .ok (.object (Json.ifSome "segmentId" .string r.segmentId ++
    [("columns", Json.listOrNull .string r.columns),
     ("events", Json.listOrNull Item.encode r.events)] ++
    Json.ifAny "rowSignature" ColumnSignature.encode r.signature))

def TimeBoundaryRow.encode (r : TimeBoundaryRow) : Except Error Json := do
  let result ← r.result.mapM fun times =>
    times.mapM fun (name, t) => return (name, ← t.encode)
  return .object [("timestamp", ← r.timestamp.encode), ("result", (result.map .object).getD .null)]

def encodeRows (encode : ρ → Except Error Json) (rows : Option (List ρ)) : Except Error Json := do
  return Json.listOrNull id (← rows.mapM fun rs => rs.mapM encode)

def ResultRows.encode : ResultRows → Except Error Json
  | .timeseries rows => encodeRows TimeseriesRow.encode rows
  | .topN rows => encodeRows TopNRow.encode rows
  | .groupBy rows => encodeRows GroupByRow.encode rows
  | .scan rows => encodeRows ScanRow.encode rows
  | .timeBoundary rows => encodeRows TimeBoundaryRow.encode rows

namespace QueryResult

def typeName (r : QueryResult) : String :=
  match r.rows with
  | .timeseries _ => "timeSeriesResult"
  | .topN _ => "topNResult"
  | .groupBy _ => "groupByResult"
  | .scan _ => "scanResult"
  | .timeBoundary _ => "timeBoundaryResult"

def encode (r : QueryResult) : Except Error Json := do
  return Json.tagged r.typeName
    (Json.ifAny "restrictions" Interval.encode r.restrictions ++ [("rows", ← r.rows.encode)])

end QueryResult

end TenantQuery
