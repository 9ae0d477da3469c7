import TenantQuery.Aggregator.Basic
import TenantQuery.Calendar.Granularity

namespace TenantQuery.Ingestion

open Json (Member Slot)

structure TimestampSpec where
  column : String := ""
  format : String := ""
deriving DecidableEq

structure GranularitySpec where
  segment : Granularity := .unset
  query : Granularity := .unset
  rollup : Option Bool := none
deriving DecidableEq

structure TransformSpec where
  filter : Option Filter := none

structure DimensionColumn where
  type : String := ""
  name : String := ""
  createBitmapIndex : Option Bool := none
  multiValueHandling : Option String := none
deriving DecidableEq

structure DimensionsSpec where
  dimensions : Option (List DimensionColumn) := none
  dimensionExclusions : Option (List String) := none
  spatialDimensions : Option (List String) := none
  includeAllDimensions : Option Bool := none
  useSchemaDiscovery : Option Bool := none
  forceSegmentSortByTime : Option Bool := none
deriving DecidableEq

structure DataSchema where
  dataSource : String := ""
  timestampSpec : Option TimestampSpec := none
  metricsSpec : Option (List Aggregator) := none
  granularitySpec : Option GranularitySpec := none
  transformSpec : Option TransformSpec := none
  dimensionsSpec : Option DimensionsSpec := none

structure InputFormat where
  type : String := ""
  keepNullColumns : Option Bool := none
deriving DecidableEq

namespace TimestampSpec

def fields : List (Member TimestampSpec) :=
  [.of "column" Slot.text ({ · with column := · }),
   .of "format" Slot.text ({ · with format := · })]

def encode (t : TimestampSpec) : Json :=
  .object (Json.ifText "column" t.column ++ Json.ifText "format" t.format)

end TimestampSpec

namespace GranularitySpec

def fields : List (Member GranularitySpec) :=
  [.of "segmentGranularity" (Slot.fresh Granularity.read) ({ · with segment := · }),
   .of "queryGranularity" (Slot.fresh Granularity.read) ({ · with query := · }),
   .of "rollup" optionalFlag ({ · with rollup := · })]

def encode (g : GranularitySpec) : Json :=
  .object (Json.ifText "segmentGranularity" g.segment.name ++
    Json.ifText "queryGranularity" g.query.name ++ Json.ifSome "rollup" .bool g.rollup)

end GranularitySpec

namespace TransformSpec

def fields : List (Member (Option Json)) :=
  [.of "filter" Slot.raw (fun _ s => s)]

def readFilter (j : Json) : Except Error (Option Filter) := do
  Filter.readOptional (← Json.readRecord fields none j)

def read (j : Json) : Except Error TransformSpec :=
  match readFilter j with
  | .ok filter => .ok ⟨filter⟩
  | .error e => .error (.within "transformSpec" e)

def encode (t : TransformSpec) : Json :=
  .object (Json.ifSome "filter" Filter.encode t.filter)

end TransformSpec

namespace DimensionColumn

def fields : List (Member DimensionColumn) :=
  [.of "type" Slot.text ({ · with type := · }),
   .of "name" Slot.text ({ · with name := · }),
   .of "createBitmapIndex" optionalFlag ({ · with createBitmapIndex := · }),
   .of "multiValueHandling" optionalText
     ({ · with multiValueHandling := · })]

def encode (d : DimensionColumn) : Json :=
  .object ([("type", .string d.type), ("name", .string d.name)] ++
    Json.ifSome "createBitmapIndex" .bool d.createBitmapIndex ++
    Json.ifSome "multiValueHandling" .string d.multiValueHandling)

end DimensionColumn

namespace DimensionsSpec

def fields : List (Member DimensionsSpec) :=
  [.of "dimensions" (Slot.list (Slot.record DimensionColumn.fields {}))
     ({ · with dimensions := · }),
   .of "dimensionExclusions" texts ({ · with dimensionExclusions := · }),
   .of "spatialDimensions" texts ({ · with spatialDimensions := · }),
   .of "includeAllDimensions" optionalFlag
     ({ · with includeAllDimensions := · }),
   .of "useSchemaDiscovery" optionalFlag
     ({ · with useSchemaDiscovery := · }),
   .of "forceSegmentSortByTime" optionalFlag
     ({ · with forceSegmentSortByTime := · })]

def encode (d : DimensionsSpec) : Json :=
  .object (Json.ifAny "dimensions" DimensionColumn.encode d.dimensions ++
    Json.ifAny "dimensionExclusions" .string d.dimensionExclusions ++
    Json.ifAny "spatialDimensions" .string d.spatialDimensions ++
    Json.ifSome "includeAllDimensions" .bool d.includeAllDimensions ++
    Json.ifSome "useSchemaDiscovery" .bool d.useSchemaDiscovery ++
    Json.ifSome "forceSegmentSortByTime" .bool d.forceSegmentSortByTime)

end DimensionsSpec

namespace DataSchema

structure Wire where
  schema : DataSchema := {}
  metrics : Option (List Json) := none

def fields : List (Member Wire) :=
  [.of "dataSource" Slot.text
     (fun w x => { w with schema := { w.schema with dataSource := x } }),
   .of "timestampSpec" (Slot.optional (Slot.record TimestampSpec.fields {}))
     (fun w x => { w with schema := { w.schema with timestampSpec := x } }),
   .of "granularitySpec" (Slot.optional (Slot.record GranularitySpec.fields {}))
     (fun w x => { w with schema := { w.schema with granularitySpec := x } }),
   .of "transformSpec" (Slot.optionalFresh TransformSpec.read)
     (fun w x => { w with schema := { w.schema with transformSpec := x } }),
   .of "dimensionsSpec" (Slot.optional (Slot.record DimensionsSpec.fields {}))
     (fun w x => { w with schema := { w.schema with dimensionsSpec := x } }),
   .of "metricsSpec" Slot.rawItems ({ · with metrics := · })]

def read (j : Json) : Except Error DataSchema :=
  -- The plain members come first, then the metrics.
  match Json.readRecord fields {} j with
  | .error e => .error (.within "dataSchema" e)
  | .ok wire =>
    match Json.readNodes Aggregator.read wire.metrics with
    | .error e => .error (.within "dataSchema" (.within "metricsSpec" e))
    | .ok metrics => .ok { wire.schema with metricsSpec := metrics }

def encode (d : DataSchema) : Json :=
  .object (("dataSource", .string d.dataSource) ::
    (Json.ifSome "timestampSpec" TimestampSpec.encode d.timestampSpec ++
     Json.ifAny "metricsSpec" Aggregator.encode d.metricsSpec ++
     Json.ifSome "granularitySpec" GranularitySpec.encode d.granularitySpec ++
     Json.ifSome "transformSpec" TransformSpec.encode d.transformSpec ++
     Json.ifSome "dimensionsSpec" DimensionsSpec.encode d.dimensionsSpec))

end DataSchema

namespace InputFormat

def fields : List (Member InputFormat) :=
  [.of "type" Slot.text ({ · with type := · }),
   .of "keepNullColumns" optionalFlag ({ · with keepNullColumns := · })]

def slot : Slot (Option InputFormat) :=
  Slot.optional (Slot.record fields {})

def encode (f : InputFormat) : Json :=
  .object (("type", .string f.type) :: Json.ifSome "keepNullColumns" .bool f.keepNullColumns)

end InputFormat

end TenantQuery.Ingestion
