import TenantQuery.Proofs.Expansion.Shape
import TenantQuery.Proofs.Filter.Settled
import TenantQuery.Proofs.Query.Twin
import TenantQuery.Proofs.Text.Normal

namespace TenantQuery

open Json Outcome

/-- Refusals that a caller cannot tell apart by code and field. -/
def CompileError.Kindred (e e' : CompileError) : Prop :=
  e.code = e'.code ∧ e.field = e'.field

theorem CompileError.Kindred.refl (e : CompileError) : e.Kindred e :=
  ⟨rfl, rfl⟩

/-- What is kept of a list that may be absent is what is kept of its elements. -/
theorem Json.present_map_eq_iff {α β : Type} {f : α → β} {v v' : Option (List α)} :
    (present v).map (·.map f) = (present v').map (·.map f) ↔
      (v.getD []).map f = (v'.getD []).map f := by
  match v, v' with
  | none, none | none, some [] | some [], none | some [], some [] => simp [present]
  | none, some (a :: as) | some [], some (a :: as) => simp [present]
  | some (a :: as), none | some (a :: as), some [] => simp [present]
  | some (a :: as), some (b :: bs) => simp [present]

theorem Text.normal_getD_congr {v v' : Option String} (h : v.map normal = v'.map normal)
    (default : String) : normal (v.getD default) = normal (v'.getD default) := by
  rw [← Option.getD_map normal, ← Option.getD_map normal, h]

theorem map_of_factors {α β γ : Type} {f : α → β} {g : α → γ} (hfg : g.FactorsThrough f)
    {as bs : List α} (h : as.map f = bs.map f) : as.map g = bs.map g := by
  induction as generalizing bs with
  | nil => rw [List.map_eq_nil_iff.1 h.symm]
  | cons a as ih =>
      obtain ⟨b, bs, rfl, hb, hbs⟩ := List.map_eq_cons_iff.1 h.symm
      rw [List.map_cons, List.map_cons, ih hbs.symm, hfg hb.symm]

theorem Aggregator.isLowered_settled (a : Aggregator) : a.settled.isLowered = a.isLowered := by
  induction a with
  | filtered filter inner name ih => exact ih
  | userCount name | eventCount name | histogram a => rfl
  | count _ | column _ _ | thetaSketch _ | hyperUnique _ | cardinality _ | quantilesSketch _ => rfl

namespace Expansion

section Lowering

variable (options : Options)

theorem lowerAggregator_congr {a b : Aggregator} (h : a.settled = b.settled) :
    (lowerAggregator options a).1.settled = (lowerAggregator options b).1.settled ∧
      (lowerAggregator options a).2.map PostAggregator.settled =
        (lowerAggregator options b).2.map PostAggregator.settled := by
  -- What is kept of an aggregator tells its kind, so that the second is of the kind of the first.
  induction a generalizing b with
  | filtered filter inner name ih =>
      cases b with
      | filtered filter' inner' name' =>
          simp only [Aggregator.settled, Aggregator.filtered.injEq] at h
          obtain ⟨hfilter, hinner, hname⟩ := h
          obtain ⟨hlowered, hpost⟩ := ih hinner
          simp only [lowerAggregator, Aggregator.settled, hfilter, hlowered, hname, true_and]
          exact hpost
      | _ => cases h
  | userCount name =>
      cases b with
      | userCount name' =>
          simp only [Aggregator.settled, Aggregator.userCount.injEq] at h
          simp only [lowerAggregator, Options.userSketch, Aggregator.outputName, Aggregator.settled,
            Text.normal_getD_congr h, and_self]
      | _ => cases h
  | eventCount name =>
      cases b with
      | eventCount name' =>
          simp only [Aggregator.settled, Aggregator.eventCount.injEq] at h
          simp only [lowerAggregator, Aggregator.outputName, Aggregator.settled,
            Text.normal_getD_congr h, and_self]
      | _ => cases h
  | histogram a =>
      cases b with
      | histogram b =>
          simp only [Aggregator.settled, Aggregator.histogram.injEq, Histogram.mk.injEq] at h
          obtain ⟨hname, hbins⟩ := h
          simp only [lowerAggregator, Aggregator.outputName, Option.map_some,
            PostAggregator.settled, Text.normal_getD_congr hname, hbins, and_self]
      | _ => cases h
  | count _ | column _ _ | thetaSketch _ | hyperUnique _ | cardinality _ | quantilesSketch _ =>
      have hb : b.isLowered = true := by
        rw [← b.isLowered_settled, ← h]
        rfl
      rw [lowerAggregator_of_isLowered options hb]
      exact ⟨h, rfl⟩

variable {as as' : Option (List Aggregator)} {ps ps' : Option (List PostAggregator)}

theorem lowerConvenience_congr
    (has : (as.getD []).map Aggregator.settled = (as'.getD []).map Aggregator.settled)
    (hps : (ps.getD []).map PostAggregator.settled = (ps'.getD []).map PostAggregator.settled) :
    ((lowerConvenience options as ps).1.getD []).map Aggregator.settled =
        ((lowerConvenience options as' ps').1.getD []).map Aggregator.settled ∧
      ((lowerConvenience options as ps).2.getD []).map PostAggregator.settled =
        ((lowerConvenience options as' ps').2.getD []).map PostAggregator.settled := by
  have hfirst (v : Option (List Aggregator)) :
      (v.map (·.map fun a => (lowerAggregator options a).1)).getD [] =
        (v.getD []).map fun a => (lowerAggregator options a).1 := by
    cases v <;> rfl
  have hlowered := map_of_factors (fun _ _ h => (lowerAggregator_congr options h).1) has
  have hadded := map_of_factors (fun _ _ h => (lowerAggregator_congr options h).2) has
  constructor
  · rw [lowerConvenience_fst, lowerConvenience_fst, hfirst, hfirst, List.map_map, List.map_map]
    exact hlowered
  · rw [lowerConvenience_snd, lowerConvenience_snd, List.map_append, List.map_append, hps,
      List.map_filterMap, List.map_filterMap]
    have hadded := congrArg (List.filterMap id) hadded
    rw [List.filterMap_map, List.filterMap_map] at hadded
    exact congrArg _ hadded

end Lowering

section Expand

variable (options : Options) {q q' : Query}

namespace Funnel

theorem settled_aggregators (steps : List Filter) :
    (aggregators options steps).map Aggregator.settled =
      (steps.map Filter.settled).zipIdx.map fun (f, i) =>
        .filtered f (options.userSketch (sketchName i)).settled none := by
  rw [aggregators, List.zipIdx_map, List.map_map, List.map_map]
  rfl

/-- The number before a step's name and the mark after it are left alone by composition. -/
theorem normal_title (i : Nat) (name : String) :
    Text.normal (toString i ++ "_" ++ name) = toString i ++ "_" ++ Text.normal name := by
  refine Text.normal_append ?_ name
  rw [String.toList_append, List.all_append, Nat.toString_eq_repr, Nat.toList_repr,
    Bool.and_eq_true]
  refine ⟨List.all_eq_true.2 fun c hc => ?_, by decide⟩
  rw [Text.isInert, Bool.or_eq_true]
  exact .inl (Decimal.isDigit_of_mem_toDigits hc)

theorem postAggregators_congr {names names' : List String}
    (h : names.map Text.normal = names'.map Text.normal) (count : Nat) :
    (postAggregators names count).map PostAggregator.settled =
      (postAggregators names' count).map PostAggregator.settled := by
  have hlabel (i : Nat) : Text.normal (label names i) = Text.normal (label names' i) := by
    rw [label, label]
    refine Text.normal_getD_congr ?_ (sketchName i)
    rw [← List.getElem?_map, ← List.getElem?_map, h]
  simp only [postAggregators, List.map_map]
  refine List.map_congr_left fun i _ => ?_
  simp only [Function.comp_apply, PostAggregator.settled, normal_title, hlabel]

end Funnel

def grouped (q : Query) (filter : Option Filter) (aggregators : List Aggregator)
    (postAggregators : List PostAggregator) : Query :=
  { q with
    queryType := .groupBy
    granularity := .all
    filter
    aggregations := some aggregators
    postAggregations := some postAggregators }

theorem grouped_congr (h : q.Akin q') {filter filter' : Option Filter} {as as' : List Aggregator}
    {ps ps' : List PostAggregator} (hfilter : filter.map Filter.settled = filter'.map Filter.settled)
    (has : as.map Aggregator.settled = as'.map Aggregator.settled)
    (hps : ps.map PostAggregator.settled = ps'.map PostAggregator.settled) :
    (grouped q filter as ps).Akin (grouped q' filter' as' ps') := by
  refine ⟨?_, ⟨h.steady.dimension, h.steady.dimensions⟩,
    ⟨h.steady'.dimension, h.steady'.dimensions⟩⟩
  have hsettled (q : Query) (filter : Option Filter) (as : List Aggregator)
      (ps : List PostAggregator) : (grouped q filter as ps).settled =
        { q.settled with
          queryType := .groupBy
          granularity := .all
          filter := filter.map Filter.settled
          aggregations := (present (some as)).map (·.map Aggregator.settled)
          postAggregations := (present (some ps)).map (·.map PostAggregator.settled) } := rfl
  have haggregators : (present (some as)).map (·.map Aggregator.settled) =
      (present (some as')).map (·.map Aggregator.settled) := present_map_eq_iff.2 has
  have hpost : (present (some ps)).map (·.map PostAggregator.settled) =
      (present (some ps')).map (·.map PostAggregator.settled) := present_map_eq_iff.2 hps
  rw [hsettled, hsettled, h.settled, hfilter, haggregators, hpost]

theorem narrowed_congr (h : q.Akin q') {filters filters' : List (Option Filter)}
    (hfilters : filters.map (·.map Filter.settled) = filters'.map (·.map Filter.settled)) :
    (Filter.allOf [q.filter, Filter.anyOf filters]).map Filter.settled =
      (Filter.allOf [q'.filter, Filter.anyOf filters']).map Filter.settled := by
  have hown : q.filter.map Filter.settled = q'.filter.map Filter.settled :=
    congrArg Query.filter h.settled
  have hany : (Filter.anyOf filters).map Filter.settled =
      (Filter.anyOf filters').map Filter.settled := Filter.join_congr .any hfilters
  exact Filter.join_congr .all (by simp only [List.map_cons, hown, hany, List.map_nil])

def Funnel.expanded (q : Query) (steps : List Filter) : Query :=
  { grouped q (Filter.allOf [q.filter, Filter.anyOf (steps.map some)])
      (aggregators options steps) (postAggregators (q.stepNames.getD []) steps.length) with
    steps := none
    stepNames := none }

theorem Funnel.expanded_congr (h : q.Akin q') {steps steps' : List Filter}
    (hsteps : steps.map Filter.settled = steps'.map Filter.settled) :
    (expanded options q steps).Akin (expanded options q' steps') := by
  have hlength : steps.length = steps'.length := by simpa using congrArg List.length hsteps
  have hnames := present_map_eq_iff.1 (congrArg Query.stepNames h.settled)
  have hsketches : (aggregators options steps).map Aggregator.settled =
      (aggregators options steps').map Aggregator.settled := by
    rw [settled_aggregators, settled_aggregators, hsteps]
  have hfilter : (steps.map some).map (·.map Filter.settled) =
      (steps'.map some).map (·.map Filter.settled) := by
    simpa [Function.comp_def] using congrArg (List.map some) hsteps
  have hgrouped := grouped_congr h (narrowed_congr h hfilter) hsketches
    (postAggregators_congr hnames steps.length)
  rw [expanded, expanded, ← hlength]
  exact hgrouped.update (fun q => { q with steps := none, stepNames := none })
    (fun _ => rfl) (fun _ => rfl) (fun _ => rfl)

theorem funnel_congr (h : q.Akin q') :
    Matched CompileError.Kindred Query.Akin (funnel options q) (funnel options q') := by
  have hsteps := present_map_eq_iff.1 (congrArg Query.steps h.settled)
  unfold funnel
  match q.steps, q'.steps, hsteps with
  | none, none, _ | none, some [], _ | some [], none, _ | some [], some [], _ =>
      exact .error ⟨rfl, rfl⟩
  | some (s :: steps), some (s' :: steps'), hsteps =>
      exact .ok (Funnel.expanded_congr options h hsteps)

theorem Experiment.cohort_congr {sample sample' : Option NamedFilter}
    (h : sample.map NamedFilter.settled = sample'.map NamedFilter.settled) (field : String) :
    Matched CompileError.Kindred (fun f f' => f.settled = f'.settled)
      (cohort field sample) (cohort field sample') := by
  match sample, sample' with
  | none, none | some ⟨none, _⟩, some ⟨none, _⟩ => exact .error ⟨rfl, rfl⟩
  | some ⟨some f, _⟩, some ⟨some f', _⟩ =>
      simp only [Option.map_some, Option.some.injEq, NamedFilter.settled, NamedFilter.mk.injEq] at h
      exact .ok h.1

theorem experiment_congr (h : q.Akin q') :
    Matched CompileError.Kindred Query.Akin (experiment options q) (experiment options q') := by
  refine (Experiment.cohort_congr (congrArg Query.sample1 h.settled) _).bind fun s1 s1' h1 => ?_
  refine (Experiment.cohort_congr (congrArg Query.sample2 h.settled) _).bind fun s2 s2' h2 => ?_
  refine (Experiment.cohort_congr (congrArg Query.successCriterion h.settled) _).bind
    fun success success' hsuccess => ?_
  have hfilter : [some s1, some s2, some success].map (·.map Filter.settled) =
      [some s1', some s2', some success'].map (·.map Filter.settled) := by
    simp only [List.map_cons, Option.map_some, h1, h2, hsuccess, List.map_nil]
  have hsketches :
      [options.filteredSketch s1 Experiment.cohort1, options.filteredSketch s2 Experiment.cohort2,
        options.filteredSketch success Experiment.success].map Aggregator.settled =
      [options.filteredSketch s1' Experiment.cohort1, options.filteredSketch s2' Experiment.cohort2,
        options.filteredSketch success' Experiment.success].map Aggregator.settled := by
    simp only [Options.filteredSketch, List.map_cons, Aggregator.settled, h1, h2, hsuccess,
      List.map_nil]
  have hgrouped := grouped_congr h (narrowed_congr h hfilter) hsketches
    (Eq.refl (Experiment.postAggregators.map PostAggregator.settled))
  exact .ok (hgrouped.update
    (fun q => { q with sample1 := none, sample2 := none, successCriterion := none })
    (fun _ => rfl) (fun _ => rfl) (fun _ => rfl))

namespace Retention

/-- No list of intervals, or one that begins with a window of whole milliseconds. -/
def Whole (q : Query) : Prop :=
  ∀ is ∈ q.intervals, ∃ i ∈ is.head?, i.settled = i

theorem window_of_relative (h : q.intervals = none) :
    window options q =
      match (q.relativeIntervals.getD []).map fun r => r.resolve options.now with
      | [] => .error .noWindow
      | first :: _ => .ok first := by
  unfold window
  rw [h]
  cases q.relativeIntervals <;> rfl

theorem Whole.exists_first (h : Whole q) {is : List Interval} (his : q.intervals = some is) :
    ∃ i rest, is = i :: rest ∧ i.settled = i ∧ window options q = .ok i := by
  obtain ⟨i, hi, heq⟩ := h is his
  obtain ⟨rest, rfl⟩ := List.head?_eq_some_iff.1 hi
  refine ⟨i, rest, rfl, heq, ?_⟩
  rw [window, his]

theorem window_congr (h : q.Akin q') (hwhole : Whole q) (hwhole' : Whole q') :
    window options q = window options q' := by
  have hintervals := present_map_eq_iff.1 (congrArg Query.intervals h.settled)
  -- No list is empty, so that both are absent or both begin with a window.
  cases hq : q.intervals with
  | none =>
      cases hq' : q'.intervals with
      | none =>
          have hrelative := present_map_eq_iff.1 (congrArg (Option.map (List.map id))
            (congrArg Query.relativeIntervals h.settled))
          rw [List.map_id, List.map_id] at hrelative
          rw [window_of_relative options hq, window_of_relative options hq', hrelative]
      | some is' =>
          obtain ⟨i', rest', rfl, -⟩ := hwhole'.exists_first options hq'
          rw [hq, hq'] at hintervals
          cases hintervals
  | some is =>
      obtain ⟨i, rest, rfl, hi, hwindow⟩ := hwhole.exists_first options hq
      cases hq' : q'.intervals with
      | none =>
          rw [hq, hq'] at hintervals
          cases hintervals
      | some is' =>
          obtain ⟨i', rest', rfl, hi', hwindow'⟩ := hwhole'.exists_first options hq'
          rw [hq, hq'] at hintervals
          have hfirst : i.settled = i'.settled := (List.cons.inj hintervals).1
          rw [hwindow, hwindow', ← hi, hfirst, hi']

end Retention

theorem retention_congr (h : q.Akin q') (hwhole : Retention.Whole q)
    (hwhole' : Retention.Whole q') :
    Matched CompileError.Kindred Query.Akin (retention options q) (retention options q') := by
  rw [retention, retention, Retention.window_congr options h hwhole hwhole']
  cases Retention.window options q' with
  | error e => exact .error ⟨rfl, rfl⟩
  | ok window =>
      by_cases hshort : window.start.monthsBetween window.stop < 1
      · simp only [ok_bind, if_pos hshort]
        exact .error ⟨rfl, rfl⟩
      · simp only [ok_bind, if_neg hshort]
        exact .ok (grouped_congr h (congrArg Query.filter h.settled) rfl rfl)

end Expand

end Expansion

end TenantQuery
