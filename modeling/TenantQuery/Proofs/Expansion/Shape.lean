import TenantQuery.Expansion.Convenience
import TenantQuery.Expansion.Experiment
import TenantQuery.Expansion.Funnel
import TenantQuery.Expansion.Retention
import TenantQuery.Proofs.Outcome

namespace TenantQuery

open Outcome

namespace Aggregator

def isLowered : Aggregator → Bool
  | .filtered _ inner _ => isLowered inner
  | a => !a.isConvenience

/-- The filters of an aggregator, from the outermost to the innermost. -/
def filters : Aggregator → List Filter
  | .filtered filter inner _ => filter :: filters inner
  | _ => []

end Aggregator

namespace Expansion

section Lowering

variable (options : Options)

theorem isLowered_lowerAggregator (a : Aggregator) :
    (lowerAggregator options a).1.isLowered = true := by
  induction a with
  | filtered filter inner name ih => exact ih
  | userCount name | eventCount name | histogram a => rfl
  | count _ | column _ _ | thetaSketch _ | hyperUnique _ | cardinality _ | quantilesSketch _ => rfl

theorem filters_lowerAggregator (a : Aggregator) :
    (lowerAggregator options a).1.filters = a.filters := by
  induction a with
  | filtered filter inner name ih => exact congrArg (filter :: ·) ih
  | userCount name | eventCount name | histogram a => rfl
  | count _ | column _ _ | thetaSketch _ | hyperUnique _ | cardinality _ | quantilesSketch _ => rfl

theorem lowerAggregator_of_isLowered {a : Aggregator} (h : a.isLowered = true) :
    lowerAggregator options a = (a, none) := by
  induction a with
  | filtered filter inner name ih => simp only [lowerAggregator, ih h]
  | userCount name | eventCount name | histogram a => cases h
  | count _ | column _ _ | thetaSketch _ | hyperUnique _ | cardinality _ | quantilesSketch _ => rfl

variable (aggregators : Option (List Aggregator)) (postAggregators : Option (List PostAggregator))

theorem lowerConvenience_fst :
    (lowerConvenience options aggregators postAggregators).1 =
      aggregators.map (·.map fun a => (lowerAggregator options a).1) := by
  cases aggregators with
  | none => rfl
  | some as => simp [lowerConvenience]

theorem lowerConvenience_snd :
    (lowerConvenience options aggregators postAggregators).2.getD [] =
      postAggregators.getD [] ++
        (aggregators.getD []).filterMap fun a => (lowerAggregator options a).2 := by
  cases aggregators with
  | none => simp [lowerConvenience]
  | some as =>
      rw [lowerConvenience, List.filterMap_map]
      split
      · rename_i hnone
        rw [List.isEmpty_iff] at hnone
        exact (List.append_right_eq_self.2 hnone).symm
      · rfl

theorem isLowered_lowerConvenience :
    ∀ as ∈ (lowerConvenience options aggregators postAggregators).1, ∀ a ∈ as,
      a.isLowered = true := by
  rw [lowerConvenience_fst]
  intro as has a ha
  obtain ⟨bs, -, rfl⟩ := Option.map_eq_some_iff.1 has
  obtain ⟨b, -, rfl⟩ := List.mem_map.1 ha
  exact isLowered_lowerAggregator options b

theorem filters_lowerConvenience :
    ((lowerConvenience options aggregators postAggregators).1.getD []).flatMap Aggregator.filters =
      (aggregators.getD []).flatMap Aggregator.filters := by
  rw [lowerConvenience_fst]
  cases aggregators with
  | none => rfl
  | some as => simp [List.flatMap_map, filters_lowerAggregator]

variable {aggregators}

/-- Aggregators of the engine are left alone, and nothing is added to what comes after them. -/
theorem lowerConvenience_of_isLowered (h : ∀ as ∈ aggregators, ∀ a ∈ as, a.isLowered = true) :
    lowerConvenience options aggregators postAggregators = (aggregators, postAggregators) := by
  cases aggregators with
  | none => rfl
  | some as =>
      have hmap : as.map (lowerAggregator options) = as.map fun a => (a, none) :=
        List.map_congr_left fun a ha => lowerAggregator_of_isLowered options (h as rfl a ha)
      simp [lowerConvenience, hmap, List.filterMap_map, Function.comp_def]

end Lowering

section Expand

variable {options : Options} {q expanded : Query}

theorem funnel_ok (h : funnel options q = .ok expanded) :
    ∃ steps, q.steps = some steps ∧ expanded =
      { q with
        queryType := .groupBy
        granularity := .all
        filter := Filter.allOf [q.filter, Filter.anyOf (steps.map some)]
        aggregations := some (Funnel.aggregators options steps)
        postAggregations := some (Funnel.postAggregators (q.stepNames.getD []) steps.length)
        steps := none
        stepNames := none } := by
  unfold funnel at h
  split at h
  · cases h
  · cases h
  · rename_i steps _ hsteps
    exact ⟨steps, hsteps, (Except.ok.inj h).symm⟩

theorem Experiment.cohort_ok {field : String} {sample : Option NamedFilter} {f : Filter}
    (h : cohort field sample = .ok f) : sample.bind (·.filter) = some f := by
  unfold cohort at h
  split at h
  · cases h
  · cases h
  · cases h
    rfl

theorem experiment_ok (h : experiment options q = .ok expanded) :
    ∃ sample1 sample2 success, q.sample1.bind (·.filter) = some sample1 ∧
      q.sample2.bind (·.filter) = some sample2 ∧
      q.successCriterion.bind (·.filter) = some success ∧ expanded =
      { q with
        queryType := .groupBy
        granularity := .all
        filter := Filter.allOf [q.filter, Filter.anyOf [some sample1, some sample2, some success]]
        aggregations := some
          [options.filteredSketch sample1 Experiment.cohort1,
           options.filteredSketch sample2 Experiment.cohort2,
           options.filteredSketch success Experiment.success]
        postAggregations := some Experiment.postAggregators
        sample1 := none
        sample2 := none
        successCriterion := none } := by
  obtain ⟨sample1, h1, h⟩ := bind_eq_ok.1 h
  obtain ⟨sample2, h2, h⟩ := bind_eq_ok.1 h
  obtain ⟨success, h3, h⟩ := bind_eq_ok.1 h
  exact ⟨sample1, sample2, success, Experiment.cohort_ok h1, Experiment.cohort_ok h2,
    Experiment.cohort_ok h3, (Except.ok.inj h).symm⟩

theorem Retention.distinctFrom_subset {α : Type} (encode : α → Json) (seen : List String)
    (as : List α) : ∀ a ∈ distinctFrom encode seen as, a ∈ as := by
  induction as generalizing seen with
  | nil => exact fun a ha => ha
  | cons b as ih =>
      intro a ha
      rw [distinctFrom] at ha
      split at ha
      · exact (List.mem_cons.1 ha).elim (fun h => h ▸ List.mem_cons_self)
          fun h => List.mem_cons_of_mem b (ih _ a h)
      · split at ha
        · exact List.mem_cons_of_mem b (ih _ a ha)
        · exact (List.mem_cons.1 ha).elim (fun h => h ▸ List.mem_cons_self)
            fun h => List.mem_cons_of_mem b (ih _ a h)

theorem retention_ok (h : retention options q = .ok expanded) :
    ∃ window, Retention.window options q = .ok window ∧
      ¬ window.start.monthsBetween window.stop < 1 ∧ expanded =
      { q with
        queryType := .groupBy
        granularity := .all
        aggregations := some (Retention.distinct Aggregator.encode
          ((Retention.months window.start window.stop).map (Retention.aggregator options)))
        postAggregations := some (Retention.distinct PostAggregator.encode
          (Retention.triangle (Retention.months window.start window.stop))) } := by
  obtain ⟨window, hwindow, h⟩ := bind_eq_ok.1 h
  by_cases hshort : window.start.monthsBetween window.stop < 1
  · simp only [if_pos hshort] at h
    cases h
  · simp only [if_neg hshort] at h
    exact ⟨window, hwindow, hshort, (Except.ok.inj h).symm⟩

end Expand

end Expansion

end TenantQuery
