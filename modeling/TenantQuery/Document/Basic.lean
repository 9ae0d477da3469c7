import TenantQuery.Document.Constraint
import TenantQuery.Document.Path
import TenantQuery.FileSystem
import TenantQuery.Query.Basic
import TenantQuery.Yaml.Record

namespace TenantQuery

inductive Notation where
  | json
  | yaml
  | cue
deriving DecidableEq

namespace Notation

def name : Notation → String
  | .json => "json"
  | .yaml => "yaml"
  | .cue => "cue"

def ofName (s : String) : Except Error Notation :=
  match s with
  | "json" => .ok .json
  | "yaml" => .ok .yaml
  | "cue" => .ok .cue
  | _ => .error (.unsupportedFormat s)

/-- The extension of a file tells its notation, whatever the case of its letters. -/
def ofPath (path : String) : Except Error Notation :=
  match (Path.extension path).toLower with
  | ".json" => .ok .json
  | ".yaml" | ".yml" => .ok .yaml
  | ".cue" => .ok .cue
  | _ => .error (.unsupportedFormat path)

end Notation

namespace Document

def ofYaml (octets : List UInt8) : Except Error String := do
  match ← Yaml.parse octets with
  | none => throw .emptyDocument
  | some tree => return (← (← tree.read Yaml.readValue).toJson).encode

/-- The member under which a document may nest its query. -/
def queryMember : String := "query"

def cueToJson? [CueEvaluator] (octets : List UInt8) : Option String := do
  let document ← CueEvaluator.compile octets
  CueEvaluator.marshal ((CueEvaluator.lookup document queryMember).getD document)

def ofCue [CueEvaluator] (octets : List UInt8) : Except Error String :=
  match cueToJson? octets with
  | some json => .ok json
  | none => .error .badCue

def convert [CueEvaluator] (path : String) (format : Notation) (octets : List UInt8) : Except Error String :=
  match format with
  | .json => .ok (Text.ofOctets octets)
  | .yaml => (ofYaml octets).mapError (.document path)
  | .cue => (ofCue octets).mapError (.document path)

def load [CueEvaluator] (fs : FileSystem) (path : String) : Except Error String := do
  let format ← Notation.ofPath path
  let text ← (fs.read path).mapError (.within "read document")
  convert path format (Text.octets text)

def loadQuery [CueEvaluator] (fs : FileSystem) (path : String) : Except Error Query := do
  let text ← load fs path
  (Query.parse text).mapError (.document path)

/-- The document files that a path names: a file itself, whatever its extension, or all those in a
directory that have a known one. -/
def filesAt (fs : FileSystem) (path : String) : Except Error (List String) :=
  match fs.locate path, fs.stat path with
  | .ok place, .ok .directory =>
    .ok (((fs.below place).map fun names => Path.join (path :: names)).filter fun file =>
      (Notation.ofPath file).isOk)
  | _, .ok _ => .ok [path]
  | _, .error fault => .error (.file "stat" path fault)

def dropRuns : List String → List String
  | a :: b :: rest => if a = b then dropRuns (b :: rest) else a :: dropRuns (b :: rest)
  | as => as

def find (fs : FileSystem) (paths : List String) : Except Error (List String) := do
  return dropRuns (← paths.mapM (filesAt fs)).flatten

end Document

end TenantQuery
