import TenantQuery.CommandLine.Report
import TenantQuery.Compiler.Settings
import TenantQuery.Compiler.Stage
import TenantQuery.Document.Basic

namespace TenantQuery.CommandLine

def loadConfig (env : Environment) (path : String) : Except Error Config :=
  if path = "" then .ok .standard else Config.load env.files path

def findDocuments (env : Environment) (paths : List String) : Except Complaint (List String) :=
  match Document.find env.files paths with
  | .ok [] =>
    .error { code := "E003"
             message := "no query documents found in [" ++ " ".intercalate paths ++ "]" }
  | .ok files => .ok files
  | .error e =>
    if e.isMissingFile then .error { code := "E005", message := e.message }
    else .error { code := "E002", message := "error scanning paths: " ++ e.message }

def refuseComplaint (env : Environment) (r : Reporter) (c : Complaint) : Run :=
  refuse env r c.code (c.code ++ ": " ++ c.message)

def foundText (count : Nat) : String :=
  "Found " ++ toString count ++ " document(s)"

def parseApp (text : String) : Except Error Uuid :=
  (Uuid.parse text).mapError (.within ("invalid --org-app-id " ++ Text.quote text))

structure CompileOptions where
  config : String := ""
  apps : List String := []
  superOrg : Bool := false
  stage : String := Stage.runnable.name
  output : String := ""

/-- One document with the hash and the text that came out for it. -/
structure Compiled where
  path : String
  hash : String
  query : Except Error String

namespace Compiled

def failed (c : Compiled) : Bool :=
  !c.query.isOk

def text (c : Compiled) : String :=
  match c.query with
  | .ok query => "✓ " ++ c.path ++ "\n  " ++ query ++ "\n"
  | .error e => "✗ " ++ c.path ++ "\n  " ++ codeOf e ++ ": " ++ e.message ++ "\n"

def json (stage : Stage) (c : Compiled) : String :=
  Json.writeTexts ([("path", textOf c.path), ("stage", textOf stage.name)] ++
    (if c.hash = "" then [] else [("hash", textOf c.hash)]) ++
    match c.query with
    | .ok query => [("query", query)]
    | .error e => [("error", (complaintOf e).json)])

end Compiled

def compileOne [CueEvaluator] (c : Compiler) (stage : Stage) (apps : List Uuid) (superOrg : Bool)
    (files : FileSystem) (path : String) : Compiled × List LogRecord :=
  match Document.loadQuery files path with
  | .error e => (⟨path, "", .error e⟩, [])
  | .ok q =>
    match c.emit stage q apps superOrg with
    | .error e => (⟨path, "", .error e⟩, [])
    | .ok emission => (⟨path, emission.hash, emission.text⟩, c.records stage q apps superOrg)

def compileReport (r : Reporter) (stage : Stage) (output : String) (docs : List Compiled) :
    String :=
  let failed := docs.countP Compiled.failed
  let compiled := docs.length - failed
  if r.json then
    response (statusOf failed)
      (some (Json.writeTexts [("documents", Json.writeItemTexts (docs.map (Compiled.json stage))),
        ("compiled", toString compiled), ("failed", toString failed)])) none
  else
    match docs with
    | [⟨_, _, .ok query⟩] =>
      if output = "" then query ++ "\n" else "Wrote compiled query to " ++ output ++ "\n"
    | docs =>
      String.join (docs.map Compiled.text) ++ "\nCompiled " ++ toString compiled ++
        " document(s), " ++ toString failed ++ " failed\n"

def writeOutput (files : FileSystem) (output : String) : List Compiled → Except Error FileSystem
  | [⟨_, _, .ok query⟩] => if output = "" then .ok files else files.write output query
  | _ => .ok files

def compileFailure (docs : List Compiled) : Option Failure :=
  let failed := docs.countP Compiled.failed
  if failed = 0 then none
  else some ⟨2, "compilation failed for " ++ toString failed ++ " document(s)"⟩

def compile [CueEvaluator] (env : Environment) (r : Reporter) (o : CompileOptions) (paths : List String) : Run :=
  match Stage.ofName? o.stage with
  | none =>
    refuse env r "E008"
      ("invalid stage " ++ Text.quote o.stage ++ ": must be precompile or runnable")
  | some stage =>
    match o.apps.mapM parseApp, loadConfig env o.config, findDocuments env paths with
    | .error e, _, _ => refuse env r "E008" e.message
    | _, .error e, _ => refuseError env r e
    | _, _, .error c => refuseComplaint env r c
    | .ok apps, .ok config, .ok files =>
      if o.output ≠ "" ∧ files.length ≠ 1 then
        refuse env r "E008"
          ("--output needs exactly one document, got " ++ toString files.length)
      else
        let compiler : Compiler := { config, now := env.now }
        -- A document that cannot be compiled does not keep the others from being compiled.
        let results := files.map (compileOne compiler stage apps o.superOrg env.files)
        let docs := results.map (·.1)
        let started : Run :=
          { files := env.files
            diagnostics := (r.log (foundText files.length)).err
            records := (results.map (·.2)).flatten.filter r.shows }
        match writeOutput env.files o.output docs with
        | .error e =>
          let refusal := refuse env r "E007" ("writing output file: " ++ e.message)
          { started with output := refusal.output, failure := refusal.failure }
        | .ok written =>
          { started with
            output := compileReport r stage o.output docs
            files := written
            failure := compileFailure docs }

structure Checked where
  path : String
  warnings : Except Error (List Warning)

namespace Checked

def valid (c : Checked) : Bool :=
  match c.warnings with
  | .ok warnings => warnings.isEmpty
  | .error _ => false

def text (c : Checked) : String :=
  if c.valid then "✓ " ++ c.path ++ "\n"
  else
    "✗ " ++ c.path ++ "\n" ++
      match c.warnings with
      | .error e => "  " ++ codeOf e ++ ": " ++ e.message ++ "\n"
      | .ok warnings => String.join (warnings.map fun w => "  E110: " ++ w.message ++ "\n")

def json (c : Checked) : String :=
  Json.writeTexts ([("path", textOf c.path), ("valid", if c.valid then "true" else "false")] ++
    match c.warnings with
    | .error e => [("error", (complaintOf e).json)]
    | .ok [] => []
    | .ok warnings =>
      [("warnings", Json.writeItemTexts (warnings.map fun w => textOf w.message))])

end Checked

def checkOne [CueEvaluator] (c : Compiler) (files : FileSystem) (path : String) : Checked :=
  ⟨path, do
    let q ← Document.loadQuery files path
    (c.check q).mapError .compile⟩

def checkReport (r : Reporter) (docs : List Checked) : String :=
  let invalid := docs.countP fun c => !c.valid
  if r.json then
    response (statusOf invalid)
      (some (Json.writeTexts [("valid", if invalid = 0 then "true" else "false"),
        ("documents", Json.writeItemTexts (docs.map Checked.json))]))
      (if invalid = 0 then none
        else some { code := "E110", message := toString invalid ++ " document(s) invalid" })
  else
    String.join (docs.map Checked.text) ++
      (if invalid = 0 then "✓ All documents valid\n" else "")

def validate [CueEvaluator] (env : Environment) (r : Reporter) (config : String) (paths : List String) : Run :=
  match loadConfig env config, findDocuments env paths with
  | .error e, _ => refuseError env r e
  | _, .error c => refuseComplaint env r c
  | .ok config, .ok files =>
    let docs := files.map (checkOne { config, now := env.now } env.files)
    let invalid := docs.countP fun c => !c.valid
    { output := checkReport r docs
      files := env.files
      diagnostics := String.join ((foundText files.length :: files.map ("Validating " ++ ·)).map
        fun line => (r.log line).err)
      failure :=
        if invalid = 0 then none
        else some ⟨1, "validation failed for " ++ toString invalid ++ " document(s)"⟩ }

end TenantQuery.CommandLine
