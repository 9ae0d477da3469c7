import TenantQuery.Calendar.Interval
import TenantQuery.Ingestion.Schema

namespace TenantQuery.Ingestion

open Json (Member Slot)

/-- The rows of a data source of the engine, of which a filter may keep some. -/
structure InputSource where
  dataSource : String := ""
  interval : Interval := .zero
  filter : Option Filter := none

namespace InputSource

def typeName : String := "druid"

structure Wire where
  dataSource : String := ""
  interval : Interval := .zero
  filter : Option Json := none

def fields : List (Member Wire) :=
  [.of "dataSource" Slot.text ({ · with dataSource := · }),
   .of "interval" (Slot.fresh Interval.read) ({ · with interval := · }),
   .of "filter" Slot.raw ({ · with filter := · })]

def readMembers (j : Json) : Except Error InputSource := do
  let wire ← Json.readRecord fields {} j
  return ⟨wire.dataSource, wire.interval, ← Filter.readOptional wire.filter⟩

def read (raw : Option Json) : Except Error InputSource :=
  Json.readNode "inputSource" [(typeName, readMembers)] raw

def encode (s : InputSource) : Json :=
  Json.tagged typeName ([("dataSource", .string s.dataSource), ("interval", s.interval.encode)] ++
    Json.ifSome "filter" Filter.encode s.filter)

end InputSource

inductive Partitions where
  | hashed (numShards : Option Int) (dimensions : Option (List String))
  | dynamic (maxRowsPerSegment maxTotalRows : Option Int)
deriving DecidableEq

namespace Partitions

structure HashedWire where
  numShards : Option Int := none
  dimensions : Option (List String) := none

def hashedFields : List (Member HashedWire) :=
  [.of "numShards" optionalInt ({ · with numShards := · }),
   .of "partitionDimensions" texts ({ · with dimensions := · })]

structure DynamicWire where
  maxRowsPerSegment : Option Int := none
  maxTotalRows : Option Int := none

def dynamicFields : List (Member DynamicWire) :=
  [.of "maxRowsPerSegment" optionalInt ({ · with maxRowsPerSegment := · }),
   .of "maxTotalRows" optionalInt ({ · with maxTotalRows := · })]

def forms : Json.Forms Partitions :=
  [("hashed", fun j => (Json.readRecord hashedFields {} j).map fun w =>
      .hashed w.numShards w.dimensions),
   ("dynamic", fun j => (Json.readRecord dynamicFields {} j).map fun w =>
      .dynamic w.maxRowsPerSegment w.maxTotalRows)]

def read (raw : Option Json) : Except Error Partitions :=
  Json.readNode "partitionsSpec" forms raw

def encode : Partitions → Json
  | .hashed numShards dimensions =>
    Json.tagged "hashed" (Json.ifSome "numShards" Json.ofInt numShards ++
      Json.ifAny "partitionDimensions" .string dimensions)
  | .dynamic maxRowsPerSegment maxTotalRows =>
    Json.tagged "dynamic" (Json.ifSome "maxRowsPerSegment" Json.ofInt maxRowsPerSegment ++
      Json.ifSome "maxTotalRows" Json.ofInt maxTotalRows)

end Partitions

def parallelType : String := "index_parallel"

structure TuningConfig where
  partitionsSpec : Option Partitions := none
  maxNumConcurrentSubTasks : Option Int := none
  forceGuaranteedRollup : Option Bool := none
  maxRowsInMemory : Option Int := none
deriving DecidableEq

namespace TuningConfig

structure Wire where
  config : TuningConfig := {}
  partitions : Option Json := none

def fields : List (Member Wire) :=
  [.of "maxNumConcurrentSubTasks" optionalInt
     (fun w x => { w with config := { w.config with maxNumConcurrentSubTasks := x } }),
   .of "forceGuaranteedRollup" optionalFlag
     (fun w x => { w with config := { w.config with forceGuaranteedRollup := x } }),
   .of "maxRowsInMemory" optionalInt
     (fun w x => { w with config := { w.config with maxRowsInMemory := x } }),
   .of "partitionsSpec" Slot.raw ({ · with partitions := · })]

def readMembers (j : Json) : Except Error TuningConfig := do
  let wire ← Json.readRecord fields {} j
  return { wire.config with
    partitionsSpec := ← Json.readOptionalNode Partitions.read wire.partitions }

def read (raw : Option Json) : Except Error TuningConfig :=
  Json.readNode "tuningConfig" [(parallelType, readMembers)] raw

def parse (text : String) : Except Error TuningConfig :=
  Json.parseNode "tuningConfig" read text

def encode (c : TuningConfig) : Json :=
  Json.tagged parallelType (Json.ifSome "partitionsSpec" Partitions.encode c.partitionsSpec ++
    Json.ifSome "maxNumConcurrentSubTasks" Json.ofInt c.maxNumConcurrentSubTasks ++
    Json.ifSome "forceGuaranteedRollup" .bool c.forceGuaranteedRollup ++
    Json.ifSome "maxRowsInMemory" Json.ofInt c.maxRowsInMemory)

end TuningConfig

structure BatchSource where
  inputFormat : Option InputFormat := none
  inputSource : InputSource
  appendToExisting : Option Bool := none
  dropExisting : Option Bool := none

structure KinesisSource where
  stream : String := ""
  inputFormat : Option InputFormat := none
  endpoint : Option String := none
  replicas : Option Int := none
  taskCount : Option Int := none
  taskDuration : Option String := none
  startDelay : Option String := none
  period : Option String := none
  useEarliestSequenceNumber : Option Bool := none
  completionTimeout : Option String := none
  lateMessageRejectionPeriod : Option String := none
  earlyMessageRejectionPeriod : Option String := none
  awsAssumedRoleArn : Option String := none
  awsExternalId : Option String := none
deriving DecidableEq

structure KafkaSource where
  topic : String := ""
  inputFormat : Option InputFormat := none
  consumerProperties : Option (List (String × String)) := none
  taskCount : Option Int := none
  replicas : Option Int := none
  taskDuration : Option String := none
  useEarliestOffset : Option Bool := none
deriving DecidableEq

/-- Where a task or a supervisor reads from. -/
inductive IOConfig where
  | batch (source : BatchSource)
  | kinesis (source : KinesisSource)
  | kafka (source : KafkaSource)

namespace BatchSource

structure Wire where
  inputFormat : Option InputFormat := none
  inputSource : Option Json := none
  appendToExisting : Option Bool := none
  dropExisting : Option Bool := none

def fields : List (Member Wire) :=
  [.of "inputFormat" InputFormat.slot ({ · with inputFormat := · }),
   .of "inputSource" Slot.raw ({ · with inputSource := · }),
   .of "appendToExisting" optionalFlag ({ · with appendToExisting := · }),
   .of "dropExisting" optionalFlag ({ · with dropExisting := · })]

def read (j : Json) : Except Error BatchSource := do
  let wire ← Json.readRecord fields {} j
  return ⟨wire.inputFormat, ← InputSource.read wire.inputSource, wire.appendToExisting,
    wire.dropExisting⟩

def members (s : BatchSource) : List (String × Json) :=
  Json.ifSome "inputFormat" InputFormat.encode s.inputFormat ++
    [("inputSource", s.inputSource.encode)] ++
    Json.ifSome "appendToExisting" .bool s.appendToExisting ++
    Json.ifSome "dropExisting" .bool s.dropExisting

end BatchSource

namespace KinesisSource

def fields : List (Member KinesisSource) :=
  [.of "stream" Slot.text ({ · with stream := · }),
   .of "inputFormat" InputFormat.slot ({ · with inputFormat := · }),
   .of "endpoint" optionalText ({ · with endpoint := · }),
   .of "replicas" optionalInt ({ · with replicas := · }),
   .of "taskCount" optionalInt ({ · with taskCount := · }),
   .of "taskDuration" optionalText ({ · with taskDuration := · }),
   .of "startDelay" optionalText ({ · with startDelay := · }),
   .of "period" optionalText ({ · with period := · }),
   .of "useEarliestSequenceNumber" optionalFlag
     ({ · with useEarliestSequenceNumber := · }),
   .of "completionTimeout" optionalText ({ · with completionTimeout := · }),
   .of "lateMessageRejectionPeriod" optionalText
     ({ · with lateMessageRejectionPeriod := · }),
   .of "earlyMessageRejectionPeriod" optionalText
     ({ · with earlyMessageRejectionPeriod := · }),
   .of "awsAssumedRoleArn" optionalText ({ · with awsAssumedRoleArn := · }),
   .of "awsExternalId" optionalText ({ · with awsExternalId := · })]

def members (s : KinesisSource) : List (String × Json) :=
  ("stream", .string s.stream) ::
    (Json.ifSome "inputFormat" InputFormat.encode s.inputFormat ++
     Json.ifSome "endpoint" .string s.endpoint ++ Json.ifSome "replicas" Json.ofInt s.replicas ++
     Json.ifSome "taskCount" Json.ofInt s.taskCount ++
     Json.ifSome "taskDuration" .string s.taskDuration ++
     Json.ifSome "startDelay" .string s.startDelay ++ Json.ifSome "period" .string s.period ++
     Json.ifSome "useEarliestSequenceNumber" .bool s.useEarliestSequenceNumber ++
     Json.ifSome "completionTimeout" .string s.completionTimeout ++
     Json.ifSome "lateMessageRejectionPeriod" .string s.lateMessageRejectionPeriod ++
     Json.ifSome "earlyMessageRejectionPeriod" .string s.earlyMessageRejectionPeriod ++
     Json.ifSome "awsAssumedRoleArn" .string s.awsAssumedRoleArn ++
     Json.ifSome "awsExternalId" .string s.awsExternalId)

end KinesisSource

namespace KafkaSource

def fields : List (Member KafkaSource) :=
  [.of "topic" Slot.text ({ · with topic := · }),
   .of "inputFormat" InputFormat.slot ({ · with inputFormat := · }),
   .of "consumerProperties" (Slot.map Slot.text)
     ({ · with consumerProperties := · }),
   .of "taskCount" optionalInt ({ · with taskCount := · }),
   .of "replicas" optionalInt ({ · with replicas := · }),
   .of "taskDuration" optionalText ({ · with taskDuration := · }),
   .of "useEarliestOffset" optionalFlag ({ · with useEarliestOffset := · })]

def properties (entries : Option (List (String × String))) : List (String × Json) :=
  match entries with
  | some (e :: es) =>
    [("consumerProperties", .object ((e :: es).map fun (key, value) => (key, .string value)))]
  | _ => []

def members (s : KafkaSource) : List (String × Json) :=
  ("topic", .string s.topic) ::
    (Json.ifSome "inputFormat" InputFormat.encode s.inputFormat ++
     properties s.consumerProperties ++ Json.ifSome "taskCount" Json.ofInt s.taskCount ++
     Json.ifSome "replicas" Json.ofInt s.replicas ++
     Json.ifSome "taskDuration" .string s.taskDuration ++
     Json.ifSome "useEarliestOffset" .bool s.useEarliestOffset)

end KafkaSource

namespace IOConfig

def typeName : IOConfig → String
  | .batch _ => parallelType
  | .kinesis _ => "kinesis"
  | .kafka _ => "kafka"

def forms : Json.Forms IOConfig :=
  [(parallelType, fun j => (BatchSource.read j).map .batch),
   ("kinesis", fun j => (Json.readRecord KinesisSource.fields {} j).map .kinesis),
   ("kafka", fun j => (Json.readRecord KafkaSource.fields {} j).map .kafka)]

def read (raw : Option Json) : Except Error IOConfig :=
  Json.readNode "ioConfig" forms raw

def parse (text : String) : Except Error IOConfig :=
  Json.parseNode "ioConfig" read text

def encode (c : IOConfig) : Json :=
  Json.tagged c.typeName (match c with
    | .batch source => source.members
    | .kinesis source => source.members
    | .kafka source => source.members)

end IOConfig

structure Spec where
  ioConfig : Option IOConfig := none
  tuningConfig : Option TuningConfig := none
  dataSchema : DataSchema := {}
  context : Option (List (String × Json)) := none

structure Task where
  id : Option String := none
  spec : Spec := {}

namespace Spec

structure Wire where
  ioConfig : Option Json := none
  tuningConfig : Option Json := none
  dataSchema : DataSchema := {}
  context : Option (List (String × Json)) := none

def fields : List (Member Wire) :=
  [.of "ioConfig" Slot.raw ({ · with ioConfig := · }),
   .of "tuningConfig" Slot.raw ({ · with tuningConfig := · }),
   .of "dataSchema" (Slot.fresh DataSchema.read) ({ · with dataSchema := · }),
   .of "context" (Slot.map Slot.any) ({ · with context := · })]

/-- A specification that is there has to say where it reads from. -/
def read (j : Json) : Except Error Spec := do
  let wire ← Json.readRecord fields {} j
  let ioConfig ← IOConfig.read wire.ioConfig
  let tuningConfig ← Json.readOptionalNode TuningConfig.read wire.tuningConfig
  return ⟨some ioConfig, tuningConfig, wire.dataSchema, wire.context⟩

def contextMember (context : Option (List (String × Json))) : List (String × Json) :=
  match context with
  | some (m :: ms) => [("context", .object (m :: ms))]
  | _ => []

def encode (s : Spec) : Json :=
  .object ([("ioConfig", (s.ioConfig.map IOConfig.encode).getD .null)] ++
    Json.ifSome "tuningConfig" TuningConfig.encode s.tuningConfig ++
    [("dataSchema", s.dataSchema.encode)] ++ contextMember s.context)

end Spec

namespace Task

def fields : List (Member Task) :=
  [.of "id" optionalText ({ · with id := · }),
   .of "spec" (Slot.fresh Spec.read) ({ · with spec := · })]

def read (raw : Option Json) : Except Error Task :=
  Json.readNode "task" [(parallelType, Json.readRecord fields {})] raw

def parse (text : String) : Except Error Task :=
  match Json.parseNode "task" read text with
  | .ok t => .ok t
  | .error e => .error (.within "ingest" e)

def encode (t : Task) : Json :=
  Json.tagged parallelType (Json.ifSome "id" .string t.id ++ [("spec", t.spec.encode)])

end Task

end TenantQuery.Ingestion
