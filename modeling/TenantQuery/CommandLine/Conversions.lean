import TenantQuery.Calendar.Segment
import TenantQuery.CommandLine.Documents
import TenantQuery.Ingestion.Reindex
import TenantQuery.Result.Basic

namespace TenantQuery.CommandLine

def segmentsReport (r : Reporter) (g : Granularity) (segments : List Segment)
    (merged : IntervalList) : String :=
  if r.json then
    response "ok" (some (Json.writeTexts
      [("segments", (Json.array (segments.map Segment.encode)).encodeLines),
       ("merged", merged.encode.encodeLines)])) none
  else
    let line (s : String) : String := "  " ++ s ++ "\n"
    "Segments (" ++ g.name ++ "):\n" ++
      String.join (segments.map fun s => line s.start.wire) ++ "Merged:\n" ++
      String.join ((merged.intervals.getD []).map fun i => line i.wire)

def segments (env : Environment) (r : Reporter) (granularity : String) (texts : List String) :
    Run :=
  match Granularity.ofName? granularity with
  | none => refuse env r "E008" ("unknown granularity " ++ Text.quote granularity)
  | some g =>
    match texts.mapM Interval.parse with
    | .error e => refuse env r "E008" e.message
    | .ok intervals =>
      let cut := IntervalList.segments ⟨some intervals⟩ g
      match cut, cut >>= IntervalList.ofSegments with
      | .ok segments, .ok merged =>
        { output := segmentsReport r g segments merged
          files := env.files
          diagnostics := (r.log (toString intervals.length ++ " interval(s) -> " ++
            toString segments.length ++ " segment(s) -> " ++
            toString (merged.intervals.getD []).length ++ " interval(s)")).err }
      | .error e, _ | _, .error e => refuseError env r (.compile e)

structure ReindexFlags where
  config : String := ""
  apps : List String := []
  source : String := ""
  target : String := ""
  interval : String := ""
  maxSubTasks : Int := 0

def canonicalReport (r : Reporter) (text : String) : String :=
  if r.json then response "ok" (some text) none else text ++ "\n"

/-- The data source to read is that of the configuration unless it is given. -/
def sourceOf (env : Environment) (o : ReindexFlags) : Except Error String :=
  if o.source ≠ "" then .ok o.source else (loadConfig env o.config).map (·.dataSource)

def writeTask (env : Environment) (r : Reporter) (o : ReindexFlags) (apps : List Uuid)
    (source : String) (interval : Interval) : Run :=
  match Ingestion.reindexTask apps
      { source, target := o.target, interval, maxSubTasks := o.maxSubTasks } with
  | .error e => refuseError env r (.compile e)
  | .ok task =>
    let diagnostics := (r.log ("Reindexing " ++ toString apps.length ++ " app(s) from " ++ source ++
      " into " ++ o.target)).err
    match task.encode.canonical with
    | .error e => { refuse env r "E001" ("encoding task: " ++ e.message) with diagnostics }
    | .ok text => { output := canonicalReport r text, files := env.files, diagnostics }

def reindex (env : Environment) (r : Reporter) (o : ReindexFlags) : Run :=
  match o.apps.mapM parseApp with
  | .error e => refuse env r "E008" e.message
  | .ok apps =>
    if o.interval = "" then refuse env r "E008" "--interval is required"
    else
      match Interval.parse o.interval with
      | .error e => refuse env r "E008" e.message
      | .ok interval =>
        if o.maxSubTasks < 0 then refuse env r "E008" "--max-subtasks must not be negative"
        else
          match sourceOf env o with
          | .error e => refuseError env r e
          | .ok source => writeTask env r o apps source interval

def readReply (env : Environment) (path : String) : Except Error String :=
  if path = "-" then .ok env.input else env.files.read path

def result (env : Environment) (r : Reporter) (queryType path : String) : Run :=
  if (QueryType.ofName? queryType).isNone then
    refuse env r "E008" ("unknown query type " ++ Text.quote queryType)
  else
    match readReply env path with
    | .error e => refuse env r (codeOf e) ("reading response: " ++ e.message)
    | .ok text =>
      match Reply.parse queryType text with
      | .error e => refuse env r "E006" e.message
      | .ok parsed =>
        let diagnostics := (r.log ("Parsed " ++ parsed.typeName)).err
        match parsed.encode >>= Json.canonical with
        | .error e => { refuse env r "E001" ("encoding result: " ++ e.message) with diagnostics }
        | .ok text => { output := canonicalReport r text, files := env.files, diagnostics }

end TenantQuery.CommandLine
