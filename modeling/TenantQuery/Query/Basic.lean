import TenantQuery.Calendar.Relative
import TenantQuery.Dimension
import TenantQuery.PostAggregator.Basic
import TenantQuery.Query.Context
import TenantQuery.Uuid

namespace TenantQuery

open Json (Member Slot)

inductive QueryType where
  | timeseries
  | groupBy
  | topN
  | scan
  | timeBoundary
  | funnel
  | retention
  | experiment
deriving DecidableEq

namespace QueryType

def name : QueryType → String
  | .timeseries => "timeseries"
  | .groupBy => "groupBy"
  | .topN => "topN"
  | .scan => "scan"
  | .timeBoundary => "timeBoundary"
  | .funnel => "funnel"
  | .retention => "retention"
  | .experiment => "experiment"

def every : List QueryType :=
  [.timeseries, .groupBy, .topN, .scan, .timeBoundary, .funnel, .retention, .experiment]

def ofName? (s : String) : Option QueryType :=
  every.find? fun t => t.name = s

def isVirtual : QueryType → Bool
  | .funnel | .retention | .experiment => true
  | _ => false

def read (j : Json) : Except Error QueryType :=
  Json.readName "queryType" ofName? j

end QueryType

/-- Which rows a tenant's query may see. -/
inductive Policy where
  | thisOrganization
  | thisApp
  | exampleData
  | noFilter
deriving DecidableEq

namespace Policy

def name : Policy → String
  | .thisOrganization => "thisOrganization"
  | .thisApp => "thisApp"
  | .exampleData => "exampleData"
  | .noFilter => "noFilter"

def ofName? (s : String) : Option Policy :=
  [thisOrganization, thisApp, exampleData, noFilter].find? fun p => p.name = s

def read (j : Json) : Except Error Policy :=
  Json.readName "baseFilters" ofName? j

end Policy

structure NamedFilter where
  filter : Option Filter
  name : String

namespace NamedFilter

structure Wire where
  filter : Option Json := none
  name : String := ""

def fields : List (Member Wire) :=
  [.of "filter" Slot.raw ({ · with filter := · }),
   .of "name" Slot.text ({ · with name := · })]

def read (j : Json) : Except Error NamedFilter := do
  let wire ← Json.readRecord fields {} j
  return ⟨← Filter.readOptional wire.filter, wire.name⟩

def encode (n : NamedFilter) : Json :=
  .object (Json.ifSome "filter" Filter.encode n.filter ++ [("name", .string n.name)])

end NamedFilter

structure Query where
  queryType : QueryType
  dataSource : String := ""
  descending : Option Bool := none
  baseFilters : Option Policy := none
  testMode : Option Bool := none
  appID : Option Uuid := none
  filter : Option Filter := none
  intervals : Option (List Interval) := none
  relativeIntervals : Option (List RelativeInterval) := none
  granularity : Granularity
  aggregations : Option (List Aggregator) := none
  postAggregations : Option (List PostAggregator) := none
  limit : Option Int := none
  context : Option Context := none
  threshold : Option Int := none
  metric : Option Metric := none
  dimension : Option Dimension := none
  dimensions : Option (List Dimension) := none
  steps : Option (List Filter) := none
  stepNames : Option (List String) := none
  sample1 : Option NamedFilter := none
  sample2 : Option NamedFilter := none
  successCriterion : Option NamedFilter := none

namespace Query

def encode (q : Query) : Json :=
  .object (("queryType", .string q.queryType.name) ::
    (Json.ifText "dataSource" q.dataSource ++ Json.ifSome "descending" .bool q.descending ++
     Json.ifSome "baseFilters" (fun p => .string p.name) q.baseFilters ++
     Json.ifSome "testMode" .bool q.testMode ++
     Json.ifSome "appID" (fun u => .string u.text) q.appID ++
     Json.ifSome "filter" Filter.encode q.filter ++
     Json.ifAny "intervals" Interval.encode q.intervals ++
     Json.ifAny "relativeIntervals" RelativeInterval.encode q.relativeIntervals ++
     [("granularity", q.granularity.encode)] ++
     Json.ifAny "aggregations" Aggregator.encode q.aggregations ++
     Json.ifAny "postAggregations" PostAggregator.encode q.postAggregations ++
     Json.ifSome "limit" Json.ofInt q.limit ++ Json.ifSome "context" Context.encode q.context ++
     Json.ifSome "threshold" Json.ofInt q.threshold ++
     Json.ifSome "metric" Metric.encode q.metric ++
     Json.ifSome "dimension" Dimension.encode q.dimension ++
     Json.ifAny "dimensions" Dimension.encode q.dimensions ++
     Json.ifAny "steps" Filter.encode q.steps ++ Json.ifAny "stepNames" .string q.stepNames ++
     Json.ifSome "sample1" NamedFilter.encode q.sample1 ++
     Json.ifSome "sample2" NamedFilter.encode q.sample2 ++
     Json.ifSome "successCriterion" NamedFilter.encode q.successCriterion))

/-- The members of a document whose nodes are still to be read. -/
structure Wire where
  queryType : Option QueryType := none
  dataSource : String := ""
  descending : Option Bool := none
  baseFilters : Option Policy := none
  testMode : Option Bool := none
  appID : Option Uuid := none
  filter : Option Json := none
  intervals : Option (List Interval) := none
  relativeIntervals : Option (List RelativeInterval) := none
  granularity : Option Granularity := none
  aggregations : Option (List Json) := none
  postAggregations : Option (List Json) := none
  limit : Option Int := none
  context : Option Context := none
  threshold : Option Int := none
  metric : Option Json := none
  dimension : Option Json := none
  dimensions : Option (List Json) := none
  steps : Option (List Json) := none
  stepNames : Option (List String) := none
  sample1 : Option NamedFilter := none
  sample2 : Option NamedFilter := none
  successCriterion : Option NamedFilter := none

def readUuid (j : Json) : Except Error Uuid := do
  Uuid.parse (← Json.readText j)

def fields : List (Member Wire) :=
  [.of "queryType" (Slot.fresh fun j => (QueryType.read j).map some)
     ({ · with queryType := · }),
   .of "dataSource" Slot.text ({ · with dataSource := · }),
   .of "descending" optionalFlag ({ · with descending := · }),
   .of "baseFilters" (Slot.optionalFresh Policy.read) ({ · with baseFilters := · }),
   .of "testMode" optionalFlag ({ · with testMode := · }),
   .of "appID" (Slot.optionalFresh readUuid) ({ · with appID := · }),
   .of "filter" Slot.raw ({ · with filter := · }),
   .of "intervals" Interval.slot ({ · with intervals := · }),
   .of "relativeIntervals" RelativeInterval.slot
     ({ · with relativeIntervals := · }),
   .of "granularity" (Slot.optionalFresh Granularity.read)
     ({ · with granularity := · }),
   .of "aggregations" Slot.rawItems ({ · with aggregations := · }),
   .of "postAggregations" Slot.rawItems ({ · with postAggregations := · }),
   .of "limit" optionalInt ({ · with limit := · }),
   .of "context" (Slot.optional (Slot.record Context.fields {}))
     ({ · with context := · }),
   .of "threshold" optionalInt ({ · with threshold := · }),
   .of "metric" Slot.raw ({ · with metric := · }),
   .of "dimension" Slot.raw ({ · with dimension := · }),
   .of "dimensions" Slot.rawItems ({ · with dimensions := · }),
   .of "steps" Slot.rawItems ({ · with steps := · }),
   .of "stepNames" texts ({ · with stepNames := · }),
   .of "sample1" (Slot.optionalFresh NamedFilter.read) ({ · with sample1 := · }),
   .of "sample2" (Slot.optionalFresh NamedFilter.read) ({ · with sample2 := · }),
   .of "successCriterion" (Slot.optionalFresh NamedFilter.read)
     ({ · with successCriterion := · })]

def inMember (name : String) (r : Except Error α) : Except Error α :=
  r.mapError (.within name)

def read (j : Json) : Except Error Query := do
  -- The plain members come first, then the nodes in this order, which decides what is reported.
  let w ← Json.readRecord fields {} j
  let some queryType := w.queryType | throw .missingQueryType
  let some granularity := w.granularity | throw .missingGranularity
  let filter ← inMember "filter" (Filter.readOptional w.filter)
  let aggregations ← inMember "aggregations" (Json.readNodes Aggregator.read w.aggregations)
  let postAggregations ←
    inMember "postAggregations" (Json.readNodes PostAggregator.read w.postAggregations)
  let steps ← inMember "steps" (Json.readNodes Filter.read w.steps)
  let dimensions ← inMember "dimensions" (Json.readNodes Dimension.read w.dimensions)
  let metric ← inMember "metric" (Json.readOptionalNode Metric.read w.metric)
  let dimension ← inMember "dimension" (Json.readOptionalNode Dimension.read w.dimension)
  return {
    queryType, dataSource := w.dataSource, descending := w.descending,
    baseFilters := w.baseFilters, testMode := w.testMode, appID := w.appID, filter,
    intervals := w.intervals, relativeIntervals := w.relativeIntervals, granularity,
    aggregations, postAggregations, limit := w.limit, context := w.context,
    threshold := w.threshold, metric, dimension, dimensions, steps, stepNames := w.stepNames,
    sample1 := w.sample1, sample2 := w.sample2, successCriterion := w.successCriterion }

def parse (text : String) : Except Error Query :=
  Json.parse text >>= read

def canonical (q : Query) : Except Error String :=
  q.encode.canonical

def hash (q : Query) : Except Error String :=
  q.encode.hash Json.queryDomain

def equal (a b : Query) : Bool :=
  match a.canonical, b.canonical with
  | .ok s, .ok t => s = t
  | _, _ => false

def extensions (q : Query) : List String :=
  let mark (name : String) (isSet : Bool) := if isSet then [name] else []
  mark "baseFilters" q.baseFilters.isSome ++ mark "testMode" q.testMode.isSome ++
    mark "appID" q.appID.isSome ++ mark "steps" q.steps.isSome ++
    mark "stepNames" q.stepNames.isSome ++ mark "sample1" q.sample1.isSome ++
    mark "sample2" q.sample2.isSome ++ mark "successCriterion" q.successCriterion.isSome

def clearExtensions (q : Query) : Query :=
  { q with
    baseFilters := none, testMode := none, appID := none, steps := none, stepNames := none,
    sample1 := none, sample2 := none, successCriterion := none }

end Query

end TenantQuery
