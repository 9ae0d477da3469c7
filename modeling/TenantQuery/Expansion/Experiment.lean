import TenantQuery.Expansion.Options
import TenantQuery.Filter.Combine

namespace TenantQuery.Expansion

namespace Experiment

def cohort1 : String := "cohort_1"
def cohort2 : String := "cohort_2"
def success : String := "success"
def cohort1Success : String := "cohort_1_success"
def cohort2Success : String := "cohort_2_success"
def zScore : String := "zscore"
def pValue : String := "pvalue"

def cohort (field : String) : Option NamedFilter → Except CompileError Filter
  | none => .error (.noCohort field)
  | some ⟨none, name⟩ => .error (.unfilteredCohort field name)
  | some ⟨some filter, _⟩ => .ok filter

/-- The users of a cohort that also succeed, be it in another event. -/
def successes (name cohort : String) : PostAggregator :=
  .sketchEstimate name (intersection [cohort, success])

def postAggregators : List PostAggregator :=
  [successes cohort1Success cohort1,
   successes cohort2Success cohort2,
   .zScore zScore (PostAggregator.finalizingAccess cohort1) (PostAggregator.access cohort1Success)
     (PostAggregator.finalizingAccess cohort2) (PostAggregator.access cohort2Success),
   .pValue pValue (PostAggregator.access zScore)]

end Experiment

/-- An experiment becomes one bucket of grouped sketches over the rows of either cohort and of the
success criterion. -/
def experiment (options : Options) (q : Query) : Except CompileError Query := do
  let sample1 ← Experiment.cohort "sample1" q.sample1
  let sample2 ← Experiment.cohort "sample2" q.sample2
  let success ← Experiment.cohort "successCriterion" q.successCriterion
  return { q with
    queryType := .groupBy
    granularity := .all
    filter := Filter.allOf [q.filter, Filter.anyOf [some sample1, some sample2, some success]]
    aggregations := some
      [options.filteredSketch sample1 Experiment.cohort1,
       options.filteredSketch sample2 Experiment.cohort2,
       options.filteredSketch success Experiment.success]
    postAggregations := some Experiment.postAggregators
    sample1 := none
    sample2 := none
    successCriterion := none }

end TenantQuery.Expansion
