import TenantQuery.Compiler.Config
import TenantQuery.FileSystem
import TenantQuery.Yaml.Record

namespace TenantQuery.Config

/-- The settings with the identifier as text. -/
structure Wire where
  dataSource : String := standard.dataSource
  userField : String := standard.userField
  exampleDataAppID : String := standard.exampleDataAppID.text
  contextTimeout : String := standard.contextTimeout
  skipEmptyBuckets : Bool := standard.skipEmptyBuckets

def fields : List (Yaml.Member Wire) :=
  [.of "dataSource" Yaml.readText ({ · with dataSource := · }),
   .of "userField" Yaml.readText ({ · with userField := · }),
   .of "exampleDataAppID" Yaml.readText ({ · with exampleDataAppID := · }),
   .of "contextTimeout" Yaml.readText ({ · with contextTimeout := · }),
   .of "skipEmptyBuckets" Yaml.readFlag ({ · with skipEmptyBuckets := · })]

def readWire (octets : List UInt8) : Except Error Wire := do
  -- A text without a document leaves everything at its standard value.
  match ← Yaml.parse octets with
  | none => return {}
  | some tree => return (← tree.read (Yaml.readRecord fields {})).getD {}

def parse (octets : List UInt8) : Except Error Config :=
  match readWire octets with
  | .error e => .error (.within "parse config" e)
  | .ok wire =>
    match Uuid.parse wire.exampleDataAppID with
    | .error e => .error (.within "parse config" (.within "exampleDataAppID" e))
    | .ok id =>
      check {
        dataSource := wire.dataSource
        userField := wire.userField
        exampleDataAppID := id
        contextTimeout := wire.contextTimeout
        skipEmptyBuckets := wire.skipEmptyBuckets }

def load (fs : FileSystem) (path : String) : Except Error Config :=
  match fs.read path with
  | .error e => .error (.within "read config" e)
  | .ok text => parse (Text.octets text)

end TenantQuery.Config
