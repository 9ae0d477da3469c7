import TenantQuery.Compiler.Basic
import TenantQuery.FileSystem
import TenantQuery.Json.Indented
import TenantQuery.Text.Blank

namespace TenantQuery.CommandLine

/-- A complaint in the form that it is shown to users. -/
structure Complaint where
  code : String
  message : String
  details : Option String := none
deriving DecidableEq

def textOf (s : String) : String :=
  (Json.string s).encodeLines

def Complaint.json (c : Complaint) : String :=
  Json.writeTexts ([("code", textOf c.code), ("message", textOf c.message)] ++
    (c.details.map fun d => ("details", textOf d)).toList)

def response (status : String) (data : Option String) (complaint : Option Complaint) : String :=
  Json.indented (Json.writeTexts ([("status", textOf status)] ++
    (data.map fun d => ("data", Json.spellLineEnds d)).toList ++
    (complaint.map fun c => ("error", c.json)).toList)) ++ "\n"

def statusOf (failed : Nat) : String :=
  if 0 < failed then "error" else "ok"

structure Written where
  out : String := ""
  err : String := ""
deriving DecidableEq

structure Reporter where
  json : Bool := false
  verbose : Bool := false
  split : Bool := true
deriving DecidableEq

namespace Reporter

def success (r : Reporter) (message : String) : Written :=
  ⟨if r.json then response "ok" (some (textOf message)) none else message ++ "\n", ""⟩

def error (r : Reporter) (c : Complaint) : Written :=
  if r.json then ⟨response "error" none (some c), ""⟩
  else
    let details :=
      match c.details with
      | some d => if r.verbose then "Details: " ++ d ++ "\n" else ""
      | none => ""
    ⟨"Error [" ++ c.code ++ "]: " ++ c.message ++ "\n" ++ details, ""⟩

def log (r : Reporter) (message : String) : Written :=
  if !r.verbose then ⟨"", ""⟩
  else if r.split then ⟨"", message ++ "\n"⟩ else ⟨message ++ "\n", ""⟩

end Reporter

def isBare (c : Char) : Bool :=
  if c.toNat < 0x80 then 0x20 < c.toNat && c != '=' && c != '"'
  else c != '\ufffd' && !Text.isBlank c && Text.isPrintable c

def logValue (s : String) : String :=
  if s ≠ "" ∧ s.toList.all isBare then s else Text.quote s

def levelName : LogLevel → String
  | .warn => "WARN"
  | .debug => "DEBUG"

def logLine (r : LogRecord) : String :=
  " ".intercalate (([("level", levelName r.level), ("msg", r.message)] ++ r.attributes).map
    fun (name, value) => name ++ "=" ++ logValue value)

def Reporter.shows (r : Reporter) (record : LogRecord) : Bool :=
  record.level = .warn || r.verbose

structure Failure where
  exit : Nat
  message : String
deriving DecidableEq

/-- All that the run of a command does. -/
structure Run where
  output : String := ""
  diagnostics : String := ""
  records : List LogRecord := []
  files : FileSystem
  failure : Option Failure := none

def Run.logLines (r : Run) : List String :=
  r.records.map logLine

def Run.exit (r : Run) : Nat :=
  (r.failure.map (·.exit)).getD 0

structure Environment where
  files : FileSystem
  input : String := ""
  now : Instant

def refuse (env : Environment) (r : Reporter) (code message : String) : Run :=
  { output := (r.error { code, message }).out
    files := env.files
    failure := some ⟨2, code ++ ": " ++ message⟩ }

def codeOf (e : Error) : String :=
  match e.compileCause? with
  | some cause =>
    match cause.code with
    | .keyMissing => "E101"
    | .notAllowed => "E102"
    | .notImplemented => "E103"
  | none =>
    if e.nodeFault?.isSome || e.isIncomplete then "E006"
    else if e.isMissingFile then "E005"
    else if e.isUnsupported || e.isDocument then "E004"
    else "E001"

def complaintOf (e : Error) : Complaint :=
  { code := codeOf e, message := e.message }

def refuseError (env : Environment) (r : Reporter) (e : Error) : Run :=
  refuse env r (codeOf e) e.message

end TenantQuery.CommandLine
