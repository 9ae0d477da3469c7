import TenantQuery.Compiler.Stage
import TenantQuery.Document.Path
import TenantQuery.FileSystem
import TenantQuery.Scenario.Assertion

namespace TenantQuery

/-- The refusal that a compilation has to end in. -/
structure Expectation where
  error : String := ""
  -- The key at fault; an empty one is not compared.
  field : String := ""
deriving DecidableEq

structure Scenario where
  name : String := ""
  description : String := ""
  -- The path of the document, unless it stands in the scenario itself.
  query : String := ""
  document : Option (List (String × Yaml.Value)) := none
  config : String := ""
  now : String := ""
  organizationAppIDs : List String := []
  superOrg : Bool := false
  stage : String := ""
  expect : Option Expectation := none
  assertions : List Assertion := []

namespace Scenario

/-- The time at which a scenario runs that names none. -/
def defaultNow : String := "2022-10-14T09:30:00Z"

def expectationFields : List (Yaml.Member Expectation) :=
  [.of "error" Yaml.readText ({ · with error := · }),
   .of "field" Yaml.readText ({ · with field := · })]

def fields : List (Yaml.Member Scenario) :=
  [.of "name" Yaml.readText ({ · with name := · }),
   .of "description" Yaml.readText ({ · with description := · }),
   .of "query" Yaml.readText ({ · with query := · }),
   .fresh "document" Yaml.readEntries ({ · with document := · }),
   .of "config" Yaml.readText ({ · with config := · }),
   .of "now" Yaml.readText ({ · with now := · }),
   .fresh "organization_app_ids" Yaml.readTexts
     (fun s ids => { s with organizationAppIDs := ids.getD [] }),
   .of "super_org" Yaml.readFlag ({ · with superOrg := · }),
   .of "stage" Yaml.readText ({ · with stage := · }),
   .fresh "expect" (Yaml.readRecord expectationFields {}) ({ · with expect := · }),
   .fresh "assertions" (Yaml.readList Assertion.read)
     (fun s as => { s with assertions := as.getD [] })]

def read (octets : List UInt8) : Except Error Scenario := do
  match ← Yaml.parse octets with
  | none => throw .endOfInput
  | some tree => return (← tree.read (Yaml.readRecord fields {})).getD {}

def parse (octets : List UInt8) : Except Error Scenario :=
  (read octets).mapError (.within "failed to parse YAML")

def expectableCodes : List Code :=
  [.keyMissing, .notAllowed, .notImplemented]

def documentFlaw? (fs : FileSystem) (s : Scenario) : Option String :=
  if s.query = "" then
    if s.document.isNone then some "one of query and document is required" else none
  else if s.document.isSome then some "only one of query and document may be set"
  else if fs.isMissing s.query then some ("query file not found: " ++ s.query)
  else none

def outcomeFlaw? (s : Scenario) : Option String :=
  match s.expect with
  | some e =>
    if !(expectableCodes.map Code.text).contains e.error then
      some ("expect: unknown error code " ++ Text.quote e.error)
    else if s.assertions.isEmpty then none
    else some "assertions cannot be combined with an expected error"
  | none =>
    if s.assertions.isEmpty then some "assertions list is required unless an error is expected"
    else none

def assertionFlaw? : (index : Nat) → List Assertion → Option String
  | _, [] => none
  | i, a :: rest =>
    match a.flaw? with
    | some flaw => some ("assertions[" ++ toString i ++ "]: " ++ flaw)
    | none => assertionFlaw? (i + 1) rest

def flaw? (fs : FileSystem) (s : Scenario) : Option String :=
  if s.name = "" then some "name is required"
  else if s.description = "" then some "description is required"
  else
    (documentFlaw? fs s).or <|
      (if s.stage = "" ∨ (Stage.ofName? s.stage).isSome then none
        else some ("unknown stage " ++ Text.quote s.stage)).or <|
      s.outcomeFlaw?.or (assertionFlaw? 0 s.assertions)

/-- A path in a scenario starts from the directory of the scenario. -/
def resolve (directory path : String) : String :=
  if path = "" ∨ Path.isAbsolute path then path else Path.join [directory, path]

def load (fs : FileSystem) (path : String) : Except Error Scenario := do
  let text ← (fs.read path).mapError (.within "failed to read scenario file")
  let s ← parse (Text.octets text)
  let directory := Path.directory path
  let s := { s with query := resolve directory s.query, config := resolve directory s.config }
  match s.flaw? fs with
  | some flaw => throw (.within "invalid scenario" (.refused flaw))
  | none => return s

end Scenario

end TenantQuery
