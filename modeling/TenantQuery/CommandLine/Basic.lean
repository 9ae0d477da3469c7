import TenantQuery.CommandLine.Conversions
import TenantQuery.CommandLine.Flag
import TenantQuery.CommandLine.Scenarios
import TenantQuery.Text.Distance

namespace TenantQuery.CommandLine

def programName : String := "tdq"

inductive Command where
  | compile
  | validate
  | segments
  | test
  | reindex
  | result
deriving DecidableEq

namespace Command

def name : Command → String
  | .compile => "compile"
  | .validate => "validate"
  | .segments => "segments"
  | .test => "test"
  | .reindex => "reindex"
  | .result => "result"

def every : List Command :=
  [.compile, .validate, .segments, .test, .reindex, .result]

def ofName? (s : String) : Option Command :=
  every.find? fun c => c.name = s

end Command

def commonFlags : List Flag :=
  [{ name := "verbose", letter := some 'v', kind := .switch }, { name := "format" },
   { name := "config" }]

def helpFlag : Flag :=
  { name := "help", letter := some 'h', kind := .switch }

def Command.ownFlags : Command → List Flag
  | .compile =>
    [{ name := "org-app-id" }, { name := "super-org", kind := .switch }, { name := "stage" },
     { name := "output", letter := some 'o' }]
  | .validate => []
  | .segments => [{ name := "granularity", letter := some 'g' }]
  | .test => [{ name := "update", kind := .switch }, { name := "filter" }]
  | .reindex =>
    [{ name := "app-id" }, { name := "source" }, { name := "target" }, { name := "interval" },
     { name := "max-subtasks", kind := .number }]
  | .result => [{ name := "query-type" }]

def Command.flags (c : Command) : List Flag :=
  c.ownFlags ++ commonFlags ++ [helpFlag]

def isSwitchName (flags : List Flag) (name : String) : Bool :=
  flags.any fun f => f.name = name && f.kind = .switch

def isSwitchLetter (flags : List Flag) (c : Char) : Bool :=
  flags.any fun f => f.letter = some c && f.kind = .switch

def takesNext (flags : List Flag) (word : String) : Bool :=
  let cs := word.toList
  !cs.contains '=' &&
    match cs with
    | '-' :: '-' :: name => !isSwitchName flags (String.ofList name)
    | ['-', c] => c.toNat < 0x80 && !isSwitchLetter flags c
    | _ => false

def isDashed (word : String) : Bool :=
  word.toList.head? == some '-'

/-- The words that are neither flags nor their values, as far as can be told before the command is
known. -/
def bareWords (flags : List Flag) : List String → List String
  | [] => []
  | word :: words =>
    if word = "--" then []
    else if takesNext flags word then
      match words with
      | _ :: next :: rest => bareWords flags (next :: rest)
      | _ => []
    else if word = "" || isDashed word then bareWords flags words
    else word :: bareWords flags words

def withoutCommand (flags : List Flag) (name : String) : List String → List String
  | [] => []
  | word :: words =>
    if word = "--" then word :: words
    else if takesNext flags word then
      match words with
      | value :: rest => word :: value :: withoutCommand flags name rest
      | [] => [word]
    else if word = name then words
    else word :: withoutCommand flags name words

def similarNames (word : String) : List String :=
  let octets (s : String) : List UInt8 := s.toLower.toUTF8.toList
  (Command.every.map Command.name ++ ["completion"]).filter fun name =>
    decide (Text.distance (octets word) (octets name) ≤ 2) ||
      word.toLower.toList.isPrefixOf name.toList

def Command.checkArguments (c : Command) (arguments : List String) : Except UsageError Unit :=
  match c, arguments with
  | .compile, [] | .validate, [] | .segments, [] => .error (.tooFewArguments 0)
  | .test, [_] | .result, [_] => .ok ()
  | .test, arguments | .result, arguments => .error (.notOneArgument arguments.length)
  | .reindex, word :: _ => .error (.unknownCommand word (programName ++ " " ++ c.name) [])
  | _, _ => .ok ()

def Command.run [CueEvaluator] (c : Command) (env : Environment) (r : Reporter) (s : Settings) : Run :=
  let config := s.text "config" ""
  let first := s.arguments.headD ""
  match c with
  | .compile =>
    CommandLine.compile env r
      { config, apps := s.texts "org-app-id", superOrg := s.flag "super-org"
        stage := s.text "stage" Stage.runnable.name, output := s.text "output" "" } s.arguments
  | .validate => CommandLine.validate env r config s.arguments
  | .segments =>
    CommandLine.segments env r (s.text "granularity" Granularity.day.name) s.arguments
  | .test => CommandLine.test env r (s.flag "update") (s.text "filter" "") first
  | .reindex =>
    CommandLine.reindex env r
      { config, apps := s.texts "app-id", source := s.text "source" ""
        target := s.text "target" "", interval := s.text "interval" ""
        maxSubTasks := s.number "max-subtasks" }
  | .result =>
    CommandLine.result env r (s.text "query-type" QueryType.timeseries.name) first

def usage : String :=
  "Usage:\n  " ++ programName ++ " [command]\n\nAvailable Commands:\n" ++
    String.join (Command.every.map fun c => "  " ++ c.name ++ "\n")

def help (env : Environment) : Run :=
  { output := usage, files := env.files }

def misuse (env : Environment) (e : UsageError) (diagnostics : String) : Run :=
  { files := env.files, diagnostics, failure := some ⟨1, e.message⟩ }

def Command.start [CueEvaluator] (c : Command) (env : Environment) (words : List String) : Run :=
  match readWords c.flags {} words with
  | .error e => misuse env e ""
  | .ok s =>
    if s.flag "help" then help env
    else
      -- The number of arguments is checked before the form of the output.
      match c.checkArguments s.arguments with
      | .error e => misuse env e ""
      | .ok () =>
        match s.text "format" "text" with
        | "text" => c.run env { verbose := s.flag "verbose" } s
        | "json" => c.run env { json := true, verbose := s.flag "verbose" } s
        | format => misuse env (.badFormat format) ""

/-- Runs the program. -/
def run [CueEvaluator] (env : Environment) (words : List String) : Run :=
  match bareWords commonFlags words with
  | [] =>
    match readWords (commonFlags ++ [helpFlag]) {} words with
    | .error e => misuse env e ("Error: " ++ e.message ++ "\n" ++ usage ++ "\n")
    | .ok _ => help env
  | word :: _ =>
    match Command.ofName? word with
    | some c => c.start env (withoutCommand commonFlags word words)
    | none =>
      if word = "help" ∨ word = "completion" then help env
      else
        let e : UsageError := .unknownCommand word programName (similarNames word)
        misuse env e ("Error: " ++ e.message ++ "\nRun '" ++ programName ++
          " --help' for usage.\n")

end TenantQuery.CommandLine
