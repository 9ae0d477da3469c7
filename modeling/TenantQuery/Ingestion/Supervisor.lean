import TenantQuery.Ingestion.Task
import TenantQuery.Json.Raw

namespace TenantQuery.Ingestion

open Json (Member Slot)

inductive SupervisorType where
  | kafka
  | kinesis
  | rabbit
  | autocompact
  | unset
deriving DecidableEq

namespace SupervisorType

def name : SupervisorType → String
  | .kafka => "kafka"
  | .kinesis => "kinesis"
  | .rabbit => "rabbit"
  | .autocompact => "autocompact"
  | .unset => ""

def ofName? (s : String) : Option SupervisorType :=
  [kafka, kinesis, rabbit, autocompact].find? fun t => t.name = s

def read (j : Json) : Except Error SupervisorType :=
  Json.readName "supervisor type" ofName? j

end SupervisorType

structure SupervisorSpec where
  ioConfig : Option IOConfig := none
  dataSchema : Option DataSchema := none
  tuningConfig : Option String := none

structure Supervisor where
  type : SupervisorType := .unset
  spec : Option SupervisorSpec := none
  suspended : Option Bool := none

namespace SupervisorSpec

structure Wire where
  ioConfig : Option Json := none
  dataSchema : Option DataSchema := none

def fields : List (Member Wire) :=
  [.of "ioConfig" Slot.raw ({ · with ioConfig := · }),
   .of "dataSchema" (Slot.optionalFresh DataSchema.read)
     ({ · with dataSchema := · })]

def readMembers (j : Json) : Except Error SupervisorSpec := do
  let wire ← Json.readRecord fields {} j
  return ⟨← Json.readOptionalNode IOConfig.read wire.ioConfig, wire.dataSchema, none⟩

def read (j : Json) : Except Error SupervisorSpec :=
  match readMembers j with
  | .ok spec => .ok spec
  | .error e => .error (.within "supervisor spec" e)

def write (s : SupervisorSpec) : String :=
  let member (name : String) (text : Option String) := text.toList.map fun t => (name, t)
  Json.writeTexts (member "ioConfig" (s.ioConfig.map fun c => c.encode.encode) ++
    member "dataSchema" (s.dataSchema.map fun d => d.encode.encode) ++
    member "tuningConfig" s.tuningConfig)

end SupervisorSpec

namespace Supervisor

def fields : List (Member Supervisor) :=
  [.of "type" (Slot.fresh SupervisorType.read) ({ · with type := · }),
   .of "spec" (Slot.optionalFresh SupervisorSpec.read) ({ · with spec := · }),
   .of "suspended" optionalFlag ({ · with suspended := · })]

/-- The text of a member, whatever the case of its letters; the last one counts. -/
def lastText (members : List (String × List Char)) (name : String) : Option (List Char) :=
  (members.reverse.find? fun m => Json.foldName m.1 = Json.foldName name).map (·.2)

def tuningText (text : String) : Option String := do
  let spec ← lastText (Json.rawMembers (Json.compact false text.toList)) "spec"
  let tuning ← lastText (Json.rawMembers spec) "tuningConfig"
  return String.ofList tuning

def readText (text : String) : Except Error Supervisor := do
  let s ← Json.parse text >>= Json.readRecord fields {}
  return { s with spec := s.spec.map fun spec => { spec with tuningConfig := tuningText text } }

def parse (text : String) : Except Error Supervisor :=
  match readText text with
  | .ok s => .ok s
  | .error e => .error (.within "ingest" e)

def write (s : Supervisor) : String :=
  let member (name : String) (text : Option String) := text.toList.map fun t => (name, t)
  Json.writeTexts (("type", (Json.string s.type.name).encode) ::
    (member "spec" (s.spec.map SupervisorSpec.write) ++
     member "suspended" (s.suspended.map fun b => (Json.bool b).encode)))

end Supervisor

end TenantQuery.Ingestion
