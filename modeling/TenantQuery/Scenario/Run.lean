import TenantQuery.Calendar.Zoned
import TenantQuery.Compiler.Settings
import TenantQuery.Document.Basic
import TenantQuery.Scenario.Basic

namespace TenantQuery

/-- How a compilation ended: with the canonical text of a query and its hash, or with a refusal. -/
inductive Outcome where
  | compiled (output hash : String)
  | refused (cause : CompileError)
deriving DecidableEq

structure Finding where
  outcome : Outcome
  errors : List String := []
deriving DecidableEq

namespace Finding

def passes (f : Finding) : Bool :=
  f.errors.isEmpty

def encode (f : Finding) : Except Error Json := do
  let outcome ← match f.outcome with
    | .compiled output hash =>
      pure (("output", ← Json.ofRaw output) :: Json.ifText "hash" hash)
    | .refused cause =>
      pure (("error_code", .string cause.code.text) :: Json.ifText "error_field" cause.field)
  return .object (("pass", .bool f.passes) :: outcome ++
    Json.ifAny "errors" .string (some f.errors))

def snapshot (f : Finding) : Except Error String := do
  let members ← match f.outcome with
    | .compiled output hash => pure [("hash", .string hash), ("output", ← Json.ofRaw output)]
    | .refused cause =>
      pure (("error_code", .string cause.code.text) :: Json.ifText "error_field" cause.field)
  (Json.object members).canonical

end Finding

namespace Scenario

def loadDocument [CueEvaluator] (fs : FileSystem) (s : Scenario) : Except Error Query :=
  if s.query ≠ "" then Document.loadQuery fs s.query
  else do
    let json ← Assertion.entriesJson s.document
    Query.parse json.encode

def loadConfig (fs : FileSystem) (s : Scenario) : Except Error Config :=
  if s.config = "" then .ok .standard else Config.load fs s.config

def clock (s : Scenario) : Except Error Instant :=
  match ZonedTime.parse? (if s.now = "" then defaultNow else s.now) with
  | some t => .ok t.instant
  | none => .error (.within "invalid now" .badInstant)

def parseApp (text : String) : Except Error Uuid :=
  (Uuid.parse text).mapError (.within ("invalid organization app ID " ++ Text.quote text))

def refusalErrors (expect : Option Expectation) (got : CompileError) : List String :=
  match expect with
  | none => ["unexpected compile error: " ++ got.message]
  | some e =>
    if got.code.text ≠ e.error then ["expected error " ++ e.error ++ ", got " ++ got.message]
    else if e.field ≠ "" ∧ got.field ≠ e.field then
      ["expected error on field " ++ Text.quote e.field ++ ", got " ++ Text.quote got.field]
    else []

def outputErrors (s : Scenario) (output : String) : Except Error (List String) :=
  match s.expect with
  | some e => .ok ["expected error " ++ e.error ++ ", but the document compiled"]
  | none => do
    let doc ← (Json.parse output >>= Json.readWith Json.Slot.any).mapError
      (.within "failed to read compiled document")
    return Assertion.failures doc s.assertions

def run [CueEvaluator] (fs : FileSystem) (s : Scenario) : Except Error Finding := do
  let q ← (s.loadDocument fs).mapError (.within "failed to load document")
  let config ← s.loadConfig fs
  let now ← s.clock
  let apps ← s.organizationAppIDs.mapM parseApp
  let compiler : Compiler := { config, now }
  let stage := (Stage.ofName? s.stage).getD .runnable
  let compiled : Except Error (String × String) := do
    let emission ← compiler.emit stage q apps s.superOrg
    return (← emission.text, emission.hash)
  match compiled with
  | .ok (output, hash) => return ⟨.compiled output hash, ← s.outputErrors output⟩
  | .error e =>
    -- A refusal by the compiler is part of the finding; any other failure is an error.
    match e.compileCause? with
    | some cause => return ⟨.refused cause, refusalErrors s.expect cause⟩
    | none => throw (.within "failed to compile" e)

end Scenario

end TenantQuery
