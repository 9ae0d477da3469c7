import TenantQuery.CommandLine.Report
import TenantQuery.Scenario.Suite

namespace TenantQuery.CommandLine

def judgedText (j : Judged) : String :=
  match j.verdict with
  | .passed updated => "✓ " ++ j.name ++ (if updated then " (golden updated)" else "") ++ "\n"
  | .failed errors =>
    "✗ " ++ j.name ++ "\n" ++ String.join (errors.map fun e => "  " ++ e ++ "\n")

def judgedJson (j : Judged) : String :=
  Json.writeTexts ([("name", textOf j.name), ("pass", if j.verdict.passes then "true" else "false")] ++
    match j.verdict with
    | .failed (e :: es) => [("errors", Json.writeItemTexts ((e :: es).map textOf))]
    | _ => [])

def failedText (failed : Nat) : String :=
  toString failed ++ " scenario(s) failed"

def suiteReport (r : Reporter) (judged : List Judged) : String :=
  let failed := judged.countP fun j => !j.verdict.passes
  let passed := judged.length - failed
  if r.json then
    response (statusOf failed)
      (some (Json.writeTexts [("scenarios", Json.writeItemTexts (judged.map judgedJson)),
        ("passed", toString passed), ("failed", toString failed),
        ("total", toString judged.length)]))
      (if failed = 0 then none else some { code := "E_TEST_FAILED", message := failedText failed })
  else if judged.isEmpty then "No scenarios found.\n"
  else
    String.join (judged.map judgedText) ++ "\nTest Summary: " ++ toString passed ++ " passed, " ++
      toString failed ++ " failed, " ++ toString judged.length ++ " total\n" ++
      (if failed = 0 then "✓ All scenarios passed\n" else "")

/-- Runs the scenarios at a path, or brings their golden files up to date. -/
def test [CueEvaluator] (env : Environment) (r : Reporter) (update : Bool) (filter path : String) : Run :=
  if env.files.isMissing path then
    { files := env.files, failure := some ⟨2, "scenarios directory not found: " ++ path⟩ }
  else
    match Suite.find env.files path filter with
    | .error e =>
      { files := env.files, failure := some ⟨2, "failed to find scenarios: " ++ e.message⟩ }
    | .ok files =>
      let (after, judged) := Suite.run update env.files files
      let failed := judged.countP fun j => !j.verdict.passes
      { output := suiteReport r judged
        files := after
        diagnostics := (r.log ("Found " ++ toString files.length ++ " scenario(s)")).err
        failure := if failed = 0 then none else some ⟨1, failedText failed⟩ }

end TenantQuery.CommandLine
