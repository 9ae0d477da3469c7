import TenantQuery.Expansion.Options
import TenantQuery.Filter.Combine

namespace TenantQuery.Expansion

namespace Funnel

def sketchName (i : Nat) : String :=
  "_funnel_step_" ++ toString i

def label (names : List String) (i : Nat) : String :=
  names[i]?.getD (sketchName i)

def reached (i : Nat) : PostAggregator :=
  if i = 0 then PostAggregator.access (sketchName 0)
  else intersection ((List.range (i + 1)).map sketchName)

def aggregators (options : Options) (steps : List Filter) : List Aggregator :=
  steps.zipIdx.map fun (step, i) => options.filteredSketch step (sketchName i)

def postAggregators (names : List String) (count : Nat) : List PostAggregator :=
  (List.range count).map fun i =>
    .sketchEstimate (toString i ++ "_" ++ label names i) (reached i)

end Funnel

/-- A funnel becomes one bucket of grouped sketches over the rows of any of its steps. -/
def funnel (options : Options) (q : Query) : Except CompileError Query :=
  match q.steps with
  | none => .error .noSteps
  | some [] => .error .emptySteps
  | some steps =>
    .ok { q with
      queryType := .groupBy
      granularity := .all
      filter := Filter.allOf [q.filter, Filter.anyOf (steps.map some)]
      aggregations := some (Funnel.aggregators options steps)
      postAggregations := some (Funnel.postAggregators (q.stepNames.getD []) steps.length)
      steps := none
      stepNames := none }

end TenantQuery.Expansion
