import TenantQuery.Proofs.Compiler.Phases
import TenantQuery.Proofs.Expansion.Shape

namespace TenantQuery

open Outcome

structure Context.Within (a b : Context) : Prop where
  timeout : ∀ v ∈ a.timeout, b.timeout = some v
  priority : ∀ v ∈ a.priority, b.priority = some v
  timestamp : ∀ v ∈ a.timestamp, b.timestamp = some v
  cacheValidityDuration : ∀ v ∈ a.cacheValidityDuration, b.cacheValidityDuration = some v
  skipEmptyBuckets : ∀ v ∈ a.skipEmptyBuckets, b.skipEmptyBuckets = some v
  grandTotal : ∀ v ∈ a.grandTotal, b.grandTotal = some v
  useCache : ∀ v ∈ a.useCache, b.useCache = some v
  populateCache : ∀ v ∈ a.populateCache, b.populateCache = some v

theorem Context.within_refl (a : Context) : a.Within a :=
  ⟨fun _ h => h, fun _ h => h, fun _ h => h, fun _ h => h, fun _ h => h, fun _ h => h,
    fun _ h => h, fun _ h => h⟩

theorem Context.within_merge (a defaults : Context) : a.Within (merge (some a) defaults) := by
  have hfirst {α : Type} (x y : Option α) : ∀ v ∈ x, (x <|> y) = some v := by
    intro v hv
    rw [show x = some v from hv]
    rfl
  exact ⟨hfirst _ _, hfirst _ _, hfirst _ _, hfirst _ _, hfirst _ _, hfirst _ _, hfirst _ _,
    hfirst _ _⟩

structure Query.SameFrame (q out : Query) : Prop where
  dataSource : out.dataSource = q.dataSource
  descending : out.descending = q.descending
  intervals : out.intervals = q.intervals
  relativeIntervals : out.relativeIntervals = q.relativeIntervals
  limit : out.limit = q.limit
  context : out.context = q.context
  threshold : out.threshold = q.threshold
  metric : out.metric = q.metric
  dimension : out.dimension = q.dimension
  dimensions : out.dimensions = q.dimensions

namespace Compiler

open Expansion

variable {c : Compiler} {q expanded out : Query}

theorem expand_ok (h : c.expand q = .ok expanded) :
    q.SameFrame expanded ∧ expanded.queryType.isVirtual = false ∧
      (q.queryType.isVirtual = false → expanded = q) := by
  unfold expand at h
  split at h
  · rename_i htype
    obtain ⟨steps, -, rfl⟩ := funnel_ok h
    exact ⟨⟨rfl, rfl, rfl, rfl, rfl, rfl, rfl, rfl, rfl, rfl⟩, rfl, by simp [htype, QueryType.isVirtual]⟩
  · rename_i htype
    obtain ⟨window, -, -, rfl⟩ := retention_ok h
    exact ⟨⟨rfl, rfl, rfl, rfl, rfl, rfl, rfl, rfl, rfl, rfl⟩, rfl, by simp [htype, QueryType.isVirtual]⟩
  · rename_i htype
    obtain ⟨sample1, sample2, success, -, -, -, rfl⟩ := experiment_ok h
    exact ⟨⟨rfl, rfl, rfl, rfl, rfl, rfl, rfl, rfl, rfl, rfl⟩, rfl, by simp [htype, QueryType.isVirtual]⟩
  · rename_i hfunnel hretention hexperiment
    cases h
    refine ⟨⟨rfl, rfl, rfl, rfl, rfl, rfl, rfl, rfl, rfl, rfl⟩, ?_, fun _ => rfl⟩
    cases htype : q.queryType <;> first | rfl | contradiction

theorem expand_of_not_virtual (c : Compiler) (h : q.queryType.isVirtual = false) :
    c.expand q = .ok q := by
  unfold expand
  split <;> first | rfl | simp_all [QueryType.isVirtual]

theorem checkIntervals_eq_ok :
    checkIntervals q = .ok () ↔
      ((q.intervals.getD []).isEmpty = !(q.relativeIntervals.getD []).isEmpty) := by
  unfold checkIntervals
  cases (q.intervals.getD []).isEmpty <;> cases (q.relativeIntervals.getD []).isEmpty <;> simp

structure Compiled (q out : Query) : Prop where
  intervals : out.intervals.getD [] ≠ []
  relativeIntervals : out.relativeIntervals.getD [] = []
  extensions : out.baseFilters = none ∧ out.testMode = none ∧ out.appID = none ∧
    out.steps = none ∧ out.stepNames = none ∧ out.sample1 = none ∧ out.sample2 = none ∧
    out.successCriterion = none
  queryType : out.queryType.isVirtual = false
  aggregations : ∀ as ∈ out.aggregations, ∀ a ∈ as, a.isLowered = true
  descending : out.descending = q.descending
  limit : out.limit = q.limit
  threshold : out.threshold = q.threshold
  metric : out.metric = q.metric
  dimension : out.dimension = q.dimension
  dimensions : out.dimensions = q.dimensions
  engine : q.queryType.isVirtual = false →
    out.queryType = q.queryType ∧ out.granularity = q.granularity
  context : ∀ a ∈ q.context, ∃ b ∈ out.context, a.Within b

theorem compiled_of_placed {policy : Policy} {scope : Option Filter}
    (hframe : q.SameFrame expanded) (htype : expanded.queryType.isVirtual = false)
    (hengine : q.queryType.isVirtual = false → expanded = q)
    (hout : c.placed policy (c.lowering expanded) scope = out)
    (intervals : Option (List Interval)) (relativeIntervals : Option (List RelativeInterval))
    (hintervals : intervals.getD [] ≠ []) (hrelative : relativeIntervals.getD [] = []) :
    Compiled q { out with intervals, relativeIntervals } := by
  have hlowered := isLowered_lowerConvenience c.options expanded.aggregations
    expanded.postAggregations
  subst hout
  rw [placed_eq]
  refine ⟨hintervals, hrelative, ⟨rfl, rfl, rfl, rfl, rfl, rfl, rfl, rfl⟩, htype, hlowered,
    hframe.descending, hframe.limit, hframe.threshold, hframe.metric, hframe.dimension,
    hframe.dimensions, fun h => ?_, fun a ha => ?_⟩
  · have heq := hengine h
    subst heq
    exact ⟨rfl, rfl⟩
  · rw [← hframe.context] at ha
    by_cases hpolicy : policy = .noFilter
    · exact ⟨a, by simpa [hpolicy, lowering] using ha, a.within_refl⟩
    · have hmerged := a.within_merge (contextDefaults c.config)
      rw [← show expanded.context = some a from ha] at hmerged
      exact ⟨_, by simp [hpolicy, lowering], hmerged⟩

/-- The second phase never fails after the first: exactly one of the two lists of intervals is
there, so that there is either something to resolve or nothing left to do. -/
theorem runnable_of_precompile {organization : List Uuid} {superOrg : Bool} {p : Precompiled}
    {records : List LogRecord} (h : c.precompile q organization superOrg = .ok (p, records))
    (c' : Compiler) : ∃ out logs, c'.runnable p = .ok (out, logs) ∧ Compiled q out := by
  obtain ⟨lowered, -, hlower, hscope, -⟩ := precompile_ok h
  obtain ⟨scope, -, hplaced⟩ := scope_eq_ok.1 hscope
  obtain ⟨hcheck, expanded, hexpand, rfl⟩ := lower_ok hlower
  obtain ⟨hframe, htype, hengine⟩ := expand_ok hexpand
  have hcompiled := compiled_of_placed hframe htype hengine hplaced
  have hsame : p.query.intervals = q.intervals ∧ p.query.relativeIntervals = q.relativeIntervals ∧
      p.query.extensions = [] ∧ p.query.queryType.isVirtual = false := by
    rw [← hplaced, placed_eq]
    exact ⟨hframe.intervals, hframe.relativeIntervals, rfl, htype⟩
  obtain ⟨hintervals, hrelative, hextensions, hvirtual⟩ := hsame
  rw [checkIntervals_eq_ok, ← hintervals, ← hrelative] at hcheck
  simp only [runnable, runnableQuery, hextensions, hvirtual, List.isEmpty_nil, Bool.not_true,
    Bool.false_eq_true, if_false]
  split
  · rename_i r rs hsome
    exact ⟨_, _, rfl, hcompiled _ _ (by simp) rfl⟩
  · rename_i hnone
    have hempty : p.query.relativeIntervals.getD [] = [] := by
      match hrel : p.query.relativeIntervals with
      | none | some [] => rfl
      | some (r :: rs) => exact absurd hrel (hnone r rs)
    rw [hempty, List.isEmpty_nil, Bool.not_true] at hcheck
    rw [hcheck]
    refine ⟨p.query, [], rfl, hcompiled p.query.intervals p.query.relativeIntervals ?_ hempty⟩
    intro hnil
    rw [hnil] at hcheck
    cases hcheck

/-- Whatever the first phase gives can be run at any time, and what is run is a query of the engine
in which the tenant's own settings stand. Both phases together fail exactly when the first does. -/
theorem compile_progress (c : Compiler) (q : Query) (organization : List Uuid) (superOrg : Bool) :
    (∀ p records, c.precompile q organization superOrg = .ok (p, records) →
      ∀ c' : Compiler, ∃ out logs, c'.runnable p = .ok (out, logs) ∧ Compiled q out) ∧
    ∀ e, c.compile q organization superOrg = .error e ↔
      c.precompile q organization superOrg = .error e := by
  refine ⟨fun p records h c' => runnable_of_precompile h c', fun e => ?_⟩
  unfold compile
  cases hprecompile : c.precompile q organization superOrg with
  | error e' => simp
  | ok result =>
      obtain ⟨out, logs, hrun, -⟩ := runnable_of_precompile hprecompile c
      simp [hrun]

def recentUsers : Query where
  queryType := .timeseries
  granularity := .day
  relativeIntervals := some [⟨⟨.day, -7, .beginning⟩, ⟨.day, 0, .ending⟩⟩]
  aggregations := some [.filtered (.selector "type" "login") (.userCount none) none, .histogram {}]
  context := some { priority := some 3 }
  stepNames := some ["first"]

theorem compile_progress_recentUsers :
    ∃ p records out logs,
      (⟨.standard, ⟨0⟩⟩ : Compiler).precompile recentUsers [Uuid.zero] false = .ok (p, records) ∧
      (⟨.standard, ⟨1⟩⟩ : Compiler).runnable p = .ok (out, logs) ∧ Compiled recentUsers out := by
  obtain ⟨text, htext⟩ : ∃ text, (placed ⟨.standard, ⟨0⟩⟩ .thisOrganization
      (lowering ⟨.standard, ⟨0⟩⟩ recentUsers) (Scope.rowsOf [Uuid.zero] none)).canonical = .ok text :=
    exists_of_isOk (by decide +kernel)
  have hscope : Compiler.scope ⟨.standard, ⟨0⟩⟩ recentUsers (lowering ⟨.standard, ⟨0⟩⟩ recentUsers)
      [Uuid.zero] false = .ok (placed ⟨.standard, ⟨0⟩⟩ .thisOrganization
        (lowering ⟨.standard, ⟨0⟩⟩ recentUsers) (Scope.rowsOf [Uuid.zero] none)) := rfl
  obtain ⟨records, hp⟩ := precompile_of_ok rfl hscope htext
  obtain ⟨out, logs, hrun, hout⟩ :=
    (compile_progress ⟨.standard, ⟨0⟩⟩ recentUsers [Uuid.zero] false).1 _ records hp ⟨.standard, ⟨1⟩⟩
  exact ⟨_, records, out, logs, hp, hrun, hout⟩

end Compiler

end TenantQuery
