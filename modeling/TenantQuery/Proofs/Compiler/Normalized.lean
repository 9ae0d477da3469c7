import TenantQuery.Proofs.Compiler.Progress
import TenantQuery.Proofs.Filter.Normal

namespace TenantQuery

open Outcome

namespace Query

def filters (q : Query) : List Filter :=
  q.filter.toList ++ (q.aggregations.getD []).flatMap Aggregator.filters

def aggregatorFilters (q : Query) : List Filter :=
  match q.queryType with
  | .funnel => q.steps.getD []
  | .experiment => [q.sample1, q.sample2, q.successCriterion].filterMap (·.bind (·.filter))
  | .retention => []
  | _ => (q.aggregations.getD []).flatMap Aggregator.filters

end Query

namespace Expansion

theorem Funnel.filters_aggregators (options : Options) (steps : List Filter) :
    (Funnel.aggregators options steps).flatMap Aggregator.filters = steps := by
  rw [Funnel.aggregators, List.flatMap_map]
  calc steps.zipIdx.flatMap (fun x => (options.filteredSketch x.1 (sketchName x.2)).filters)
      = steps.zipIdx.map Prod.fst := List.flatMap_pure_eq_map ..
    _ = steps := List.zipIdx_map_fst ..

theorem Retention.isNormal_of_mem_filters {options : Options} {months : List Interval} {f : Filter}
    (h : f ∈ (Retention.distinct Aggregator.encode
      (months.map (Retention.aggregator options))).flatMap Aggregator.filters) :
    f.isNormal = true := by
  obtain ⟨a, ha, hf⟩ := List.mem_flatMap.1 h
  obtain ⟨m, -, rfl⟩ := List.mem_map.1 (Retention.distinctFrom_subset _ _ _ a ha)
  rw [List.mem_singleton.1 hf]
  rfl

end Expansion

namespace Compiler

open Expansion

variable {c : Compiler} {q expanded : Query}

theorem expand_filters (h : c.expand q = .ok expanded) :
    (∀ f ∈ (expanded.aggregations.getD []).flatMap Aggregator.filters, f.isNormal = true) ↔
      ∀ f ∈ q.aggregatorFilters, f.isNormal = true := by
  unfold expand at h
  unfold Query.aggregatorFilters
  split at h
  · rename_i htype
    obtain ⟨steps, hsteps, rfl⟩ := funnel_ok h
    simp only [htype, hsteps, Option.getD_some, Funnel.filters_aggregators]
  · rename_i htype
    obtain ⟨window, -, -, rfl⟩ := retention_ok h
    simp only [htype, Option.getD_some, List.not_mem_nil, false_implies, implies_true, iff_true]
    exact fun f hf => Retention.isNormal_of_mem_filters hf
  · rename_i htype
    obtain ⟨sample1, sample2, success, h1, h2, h3, rfl⟩ := experiment_ok h
    simp only [htype, h1, h2, h3, List.filterMap_cons, List.filterMap_nil, Option.getD_some]
    exact Iff.rfl
  · cases h
    cases htype : q.queryType <;> first | exact Iff.rfl | contradiction

/-- The filter of a precompiled query is in normal form. All of its filters are, those of aggregators
included, exactly if the filters that the query brings for its aggregators were so to begin with. -/
theorem precompile_filters_isNormal (c : Compiler) (q : Query) (organization : List Uuid)
    (superOrg : Bool) (p : Precompiled) (records : List LogRecord)
    (h : c.precompile q organization superOrg = .ok (p, records)) :
    (∀ f ∈ p.query.filter, f.isNormal = true) ∧
      ((∀ f ∈ p.query.filters, f.isNormal = true) ↔
        ∀ f ∈ q.aggregatorFilters, f.isNormal = true) := by
  obtain ⟨lowered, -, hlower, hscope, -⟩ := precompile_ok h
  obtain ⟨scope, -, hplaced⟩ := scope_eq_ok.1 hscope
  obtain ⟨-, expanded, hexpand, rfl⟩ := lower_ok hlower
  have hfilter : ∀ f ∈ p.query.filter, f.isNormal = true := by
    intro f hf
    rw [← hplaced, placed_eq] at hf
    obtain ⟨g, -, rfl⟩ := Option.map_eq_some_iff.1 hf
    exact Filter.isNormal_normalize g
  have haggregations : (p.query.aggregations.getD []).flatMap Aggregator.filters =
      (expanded.aggregations.getD []).flatMap Aggregator.filters := by
    rw [← hplaced, placed_eq]
    exact filters_lowerConvenience c.options _ _
  refine ⟨hfilter, ?_⟩
  rw [← expand_filters hexpand, ← haggregations, Query.filters, List.forall_mem_append]
  simp only [Option.mem_toList]
  exact and_iff_right hfilter

def loginsOfNested : Query where
  queryType := .timeseries
  granularity := .day
  intervals := some [⟨⟨0⟩, ⟨0⟩⟩]
  filter := some (.junctionOf .any [.junctionOf .any [.selector "os" "ios", .constant false],
    .not (.not (.junctionOf .all [.selector "os" "macos"]))])
  aggregations := some [.filtered (.selector "type" "login") (.userCount none) none]

theorem precompile_filters_isNormal_loginsOfNested :
    ∃ p records,
      (⟨.standard, ⟨0⟩⟩ : Compiler).precompile loginsOfNested [Uuid.zero] false = .ok (p, records) ∧
      (∀ f ∈ loginsOfNested.aggregatorFilters, f.isNormal = true) ∧
      ∀ f ∈ p.query.filters, f.isNormal = true := by
  obtain ⟨text, htext⟩ : ∃ text, (placed ⟨.standard, ⟨0⟩⟩ .thisOrganization
      (lowering ⟨.standard, ⟨0⟩⟩ loginsOfNested)
      (Scope.rowsOf [Uuid.zero] none)).canonical = .ok text :=
    exists_of_isOk (by decide +kernel)
  have hscope : Compiler.scope ⟨.standard, ⟨0⟩⟩ loginsOfNested
      (lowering ⟨.standard, ⟨0⟩⟩ loginsOfNested) [Uuid.zero] false =
      .ok (placed ⟨.standard, ⟨0⟩⟩ .thisOrganization (lowering ⟨.standard, ⟨0⟩⟩ loginsOfNested)
        (Scope.rowsOf [Uuid.zero] none)) := rfl
  obtain ⟨records, hp⟩ := precompile_of_ok rfl hscope htext
  have hnormal : ∀ f ∈ loginsOfNested.aggregatorFilters, f.isNormal = true := by decide
  exact ⟨_, records, hp, hnormal,
    (precompile_filters_isNormal _ loginsOfNested [Uuid.zero] false _ records hp).2.2 hnormal⟩

def countOfEmptyText : Json := .object [
  ("queryType", .string "timeseries"), ("granularity", .string "all"),
  ("baseFilters", .string "noFilter"),
  ("intervals", .array [.string "2022-08-01T00:00:00.000Z/2022-09-01T00:00:00.000Z"]),
  ("aggregations", .array [.object [("type", .string "filtered"),
    ("filter", .object [("type", .string "and"), ("fields", .array [])]),
    ("aggregator", .object [("type", .string "count"), ("name", .string "n")])]])]

def countOfEmpty : Query where
  queryType := .timeseries
  granularity := .all
  baseFilters := some .noFilter
  intervals := some [⟨⟨1659312000000000000⟩, ⟨1661990400000000000⟩⟩]
  aggregations := some [.filtered (.junctionOf .all []) (.count "n") none]

theorem precompile_countOfEmpty :
    ∃ p records, Query.read countOfEmptyText = .ok countOfEmpty ∧
      (⟨.standard, ⟨0⟩⟩ : Compiler).precompile countOfEmpty [] true = .ok (p, records) ∧
      ∃ f ∈ p.query.filters, f.isNormal = false := by
  have hread : Query.read countOfEmptyText = .ok countOfEmpty := by rfl
  obtain ⟨text, htext⟩ : ∃ text, (placed ⟨.standard, ⟨0⟩⟩ .noFilter countOfEmpty none).canonical =
      .ok text := exists_of_isOk (by decide +kernel)
  have hscope : Compiler.scope ⟨.standard, ⟨0⟩⟩ countOfEmpty countOfEmpty [] true =
      .ok (placed ⟨.standard, ⟨0⟩⟩ .noFilter countOfEmpty none) := rfl
  obtain ⟨records, hp⟩ := precompile_of_ok rfl hscope htext
  exact ⟨_, records, hread, hp, .junctionOf .all [], List.mem_singleton_self _, rfl⟩

end Compiler

end TenantQuery
