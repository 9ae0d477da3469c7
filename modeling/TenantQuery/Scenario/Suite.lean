import TenantQuery.Scenario.Glob
import TenantQuery.Scenario.Run

namespace TenantQuery

namespace Golden

def path (scenarioFile : String) : String :=
  Path.join [Path.directory scenarioFile, "golden", Path.stem scenarioFile ++ ".golden"]

def write (fs : FileSystem) (scenarioFile : String) (f : Finding) : Except Error FileSystem := do
  let text ← f.snapshot.mapError (.within "failed to marshal snapshot")
  let path := path scenarioFile
  let fs ← (fs.makeDirectory (Path.directory path)).mapError
    (.within "failed to create golden directory")
  (fs.write path text).mapError (.within "failed to write golden file")

def agrees (fs : FileSystem) (scenarioFile : String) (f : Finding) : Except Error Bool := do
  let want ← fs.read (path scenarioFile)
  let got ← f.snapshot.mapError (.within "failed to marshal snapshot")
  return want = got

end Golden

inductive Verdict where
  | passed (updated : Bool)
  | failed (errors : List String)
deriving DecidableEq

def Verdict.passes : Verdict → Bool
  | .passed _ => true
  | .failed _ => false

structure Judged where
  name : String
  verdict : Verdict
deriving DecidableEq

namespace Suite

/-- A scenario without a golden file is judged by its assertions only. -/
def compare (fs : FileSystem) (file : String) (f : Finding) : Verdict :=
  match Golden.agrees fs file f with
  | .ok true => .passed false
  | .ok false =>
    .failed ["compiled output does not match golden file (run with --update to regenerate)"]
  | .error e =>
    if e.isMissingFile then .passed false
    else .failed ["golden comparison failed: " ++ e.message]

/-- Runs one scenario file. The files change only when a golden file is written. -/
def runFile [CueEvaluator] (update : Bool) (fs : FileSystem) (file : String) : FileSystem × Judged :=
  match Scenario.load fs file with
  | .error e => (fs, ⟨Path.base file, .failed ["failed to load scenario: " ++ e.message]⟩)
  | .ok s =>
    match s.run fs with
    | .error e => (fs, ⟨s.name, .failed ["execution failed: " ++ e.message]⟩)
    | .ok finding =>
      if !finding.passes then (fs, ⟨s.name, .failed finding.errors⟩)
      else if update then
        match Golden.write fs file finding with
        | .ok written => (written, ⟨s.name, .passed true⟩)
        | .error e => (fs, ⟨s.name, .failed ["failed to update golden file: " ++ e.message]⟩)
      else (fs, ⟨s.name, compare fs file finding⟩)

def run [CueEvaluator] (update : Bool) : FileSystem → List String → FileSystem × List Judged
  | fs, [] => (fs, [])
  | fs, file :: files =>
    let (fs, judged) := runFile update fs file
    let (fs, rest) := run update fs files
    (fs, judged :: rest)

def isScenarioFile (file : String) : Bool :=
  Path.extension file = ".yaml" || Path.extension file = ".yml"

def admits (filter file : String) : Except Error Bool :=
  if filter = "" then .ok true
  else
    match Glob.parse? filter with
    | none => .error (.within "invalid filter pattern" (.refused "syntax error in pattern"))
    | some pieces => .ok (Glob.accepts pieces (Path.stem file))

def select (filter : String) : List String → Except Error (List String)
  | [] => .ok []
  | file :: files => do
    let keep ← admits filter file
    let rest ← select filter files
    return if keep then file :: rest else rest

def find (fs : FileSystem) (root filter : String) : Except Error (List String) :=
  match fs.locate root, fs.stat root with
  | .ok place, .ok .directory =>
    select filter
      (((fs.below place).map fun names => Path.join (root :: names)).filter isScenarioFile)
  | _, .ok _ => select filter ([root].filter isScenarioFile)
  | _, .error fault => .error (.file "lstat" root fault)

end Suite

end TenantQuery
