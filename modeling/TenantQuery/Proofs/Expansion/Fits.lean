import TenantQuery.Proofs.Calendar.Month
import TenantQuery.Proofs.Expansion.Shape
import TenantQuery.Proofs.Filter.Windows
import TenantQuery.Proofs.Query.Fits

namespace TenantQuery

open Json Outcome

structure Interval.Moderate (i : Interval) : Prop where
  start : i.start.Moderate
  stop : i.stop.Moderate

instance (i : Interval) : Decidable i.Moderate :=
  decidable_of_iff (i.start.Moderate ∧ i.stop.Moderate) ⟨fun h => ⟨h.1, h.2⟩, fun h => ⟨h.1, h.2⟩⟩

theorem Interval.Moderate.dated {i : Interval} (h : i.Moderate) : i.Dated :=
  ⟨h.start.representable, h.stop.representable⟩

namespace Expansion

theorem Retention.dated_months {start stop : Instant} (hstart : start.Moderate)
    (hstop : stop.Moderate) : ∀ m ∈ months start stop, m.Dated := by
  intro m hm
  obtain ⟨i, hi, rfl⟩ := List.mem_map.1 hm
  have hcount := Instant.monthsBetween_le start stop
  have hi' : (i : Int) ≤ start.monthsBetween stop := by
    have := List.mem_range.1 hi
    omega
  obtain ⟨hlow, hhigh⟩ := hstart
  obtain ⟨hlow', hhigh'⟩ := hstop
  have hvalid := start.date_valid
  have hpos := hvalid.month_pos
  have hle := hvalid.month_le
  have hshift := (Instant.date_addMonths start i).1
  have hfirst := congrArg Calendar.Date.year (Instant.date_beginningOf_month (start.addMonths i))
  have hend := Instant.year_endOf_month ((start.addMonths i).beginningOf .month)
  dsimp only at hfirst
  constructor <;> apply Instant.representable_of_year <;>
    simp only [month, Instant.add, Instant.firstYear] <;> omega

theorem fits_intersection (sketches : List String) : (intersection sketches).Fits := by
  refine ⟨by simp, PostAggregator.fitAll_iff.2 fun p hp => ?_⟩
  obtain ⟨name, -, rfl⟩ := List.mem_map.1 hp
  trivial

theorem known_all : Granularity.all ∈ Granularity.known := by
  decide

theorem fits_userSketch (options : Options) (name : String) : (options.userSketch name).Fits := by
  rw [Options.userSketch, Aggregator.Fits]
  simp

theorem fits_filteredSketch (options : Options) (f : Filter) (name : String) :
    (options.filteredSketch f name).Fits :=
  fits_userSketch options name

theorem filteredSketch_dated {options : Options} {f : Filter} (name : String)
    (h : ∀ i ∈ f.windows, i.Dated) : ∀ i ∈ (options.filteredSketch f name).windows, i.Dated := by
  intro i hi
  rcases List.mem_append.1 hi with hi | hi
  · exact h i hi
  · cases hi

theorem Retention.aggregator_dated (options : Options) {m : Interval} (h : m.Dated) :
    ∀ i ∈ (aggregator options m).windows, i.Dated := by
  refine filteredSketch_dated _ fun i hi => ?_
  rw [List.mem_singleton.1 hi]
  exact h

/-- What holds of the windows of filters holds of those of their junction. -/
theorem forall_windows_join {op : Junction} {filters : List (Option Filter)} {P : Interval → Prop}
    (h : ∀ f, some f ∈ filters → ∀ i ∈ f.windows, P i) :
    ∀ f ∈ Filter.join op filters, ∀ i ∈ f.windows, P i := by
  intro f hf i hi
  rw [Filter.windows_join hf, List.mem_flatMap] at hi
  obtain ⟨g, hg, hi⟩ := hi
  obtain ⟨o, ho, hg⟩ := List.mem_flatMap.1 hg
  rw [Option.mem_toList] at hg
  exact h g (by rwa [← show o = some g from hg]) i hi

section Expand

variable {options : Options} {q expanded : Query}

theorem funnel_spellable (hq : q.Spellable) (h : funnel options q = .ok expanded) :
    expanded.Spellable := by
  obtain ⟨steps, -, rfl⟩ := funnel_ok h
  refine { hq with
    granularity := known_all
    aggregations := fun as has a ha => ?_
    postAggregations := fun ps hps p hp => ?_ }
  · cases has
    obtain ⟨⟨step, n⟩, -, rfl⟩ := List.mem_map.1 ha
    exact fits_filteredSketch options step _
  · cases hps
    obtain ⟨n, -, rfl⟩ := List.mem_map.1 hp
    show (Funnel.reached n).Fits
    unfold Funnel.reached
    split
    · trivial
    · exact fits_intersection _

theorem experiment_spellable (hq : q.Spellable) (h : experiment options q = .ok expanded) :
    expanded.Spellable := by
  obtain ⟨sample1, sample2, success, -, -, -, rfl⟩ := experiment_ok h
  refine { hq with
    granularity := known_all
    aggregations := fun as has a ha => ?_
    postAggregations := fun ps hps p hp => ?_ }
  · cases has
    simp only [List.mem_cons, List.not_mem_nil, or_false] at ha
    rcases ha with rfl | rfl | rfl
    · exact fits_filteredSketch options sample1 _
    · exact fits_filteredSketch options sample2 _
    · exact fits_filteredSketch options success _
  · cases hps
    simp only [Experiment.postAggregators, List.mem_cons, List.not_mem_nil, or_false] at hp
    rcases hp with rfl | rfl | rfl | rfl
    · exact fits_intersection _
    · exact fits_intersection _
    · exact ⟨trivial, trivial, trivial, trivial⟩
    · trivial

theorem Retention.mem_triangle {months : List Interval} {p : PostAggregator}
    (h : p ∈ triangle months) : ∃ row column, p = postAggregator row column := by
  induction months with
  | nil => cases h
  | cons row rest ih =>
      rcases List.mem_append.1 h with h | h
      · obtain ⟨column, -, rfl⟩ := List.mem_map.1 h
        exact ⟨row, column, rfl⟩
      · exact ih h

theorem retention_spellable (hq : q.Spellable) (h : retention options q = .ok expanded) :
    expanded.Spellable := by
  obtain ⟨window, -, -, rfl⟩ := retention_ok h
  refine { hq with
    granularity := known_all
    aggregations := fun as has a ha => ?_
    postAggregations := fun ps hps p hp => ?_ }
  · cases has
    obtain ⟨m, -, rfl⟩ := List.mem_map.1 (Retention.distinctFrom_subset _ _ _ a ha)
    exact fits_filteredSketch options _ _
  · cases hps
    obtain ⟨row, column, rfl⟩ := Retention.mem_triangle (Retention.distinctFrom_subset _ _ _ p hp)
    exact fits_intersection _

theorem funnel_fits (hq : q.Fits) (hsteps : ∀ fs ∈ q.steps, ∀ f ∈ fs, ∀ i ∈ f.windows, i.Dated)
    (h : funnel options q = .ok expanded) :
    expanded.Fits ∧ expanded.intervals = q.intervals ∧
      expanded.relativeIntervals = q.relativeIntervals := by
  have hspellable := funnel_spellable hq.spellable h
  obtain ⟨steps, hsome, rfl⟩ := funnel_ok h
  have hdated := hsteps steps hsome
  refine ⟨{ hspellable with
    filter := forall_windows_join fun f hf => ?_
    intervals := hq.intervals
    aggregations := fun as has a ha => ⟨hspellable.aggregations as has a ha, ?_⟩ }, rfl, rfl⟩
  · rcases List.mem_cons.1 hf with hf | hf
    · exact hq.filter f hf.symm
    · rw [List.mem_singleton] at hf
      exact forall_windows_join (fun g hg => by simpa using hdated g (by simpa using hg)) f hf.symm
  · cases has
    obtain ⟨⟨step, n⟩, hstep, rfl⟩ := List.mem_map.1 ha
    exact filteredSketch_dated _ (hdated step (List.fst_mem_of_mem_zipIdx hstep))

theorem experiment_fits (hq : q.Fits)
    (hsamples : ∀ sample ∈ [q.sample1, q.sample2, q.successCriterion], ∀ f,
      sample.bind (·.filter) = some f → ∀ i ∈ f.windows, i.Dated)
    (h : experiment options q = .ok expanded) :
    expanded.Fits ∧ expanded.intervals = q.intervals ∧
      expanded.relativeIntervals = q.relativeIntervals := by
  have hspellable := experiment_spellable hq.spellable h
  obtain ⟨sample1, sample2, success, h1, h2, h3, rfl⟩ := experiment_ok h
  have hdated1 := hsamples _ (by simp) sample1 h1
  have hdated2 := hsamples _ (by simp) sample2 h2
  have hdated3 := hsamples _ (by simp) success h3
  refine ⟨{ hspellable with
    filter := forall_windows_join fun f hf => ?_
    intervals := hq.intervals
    aggregations := fun as has a ha => ⟨hspellable.aggregations as has a ha, ?_⟩ }, rfl, rfl⟩
  · rcases List.mem_cons.1 hf with hf | hf
    · exact hq.filter f hf.symm
    · rw [List.mem_singleton] at hf
      refine forall_windows_join (fun g hg => ?_) f hf.symm
      simp only [List.mem_cons, Option.some.injEq, List.not_mem_nil, or_false] at hg
      rcases hg with rfl | rfl | rfl
      · exact hdated1
      · exact hdated2
      · exact hdated3
  · cases has
    simp only [List.mem_cons, List.not_mem_nil, or_false] at ha
    rcases ha with rfl | rfl | rfl
    · exact filteredSketch_dated _ hdated1
    · exact filteredSketch_dated _ hdated2
    · exact filteredSketch_dated _ hdated3

/-- The window of a retention query is its first interval. -/
theorem Retention.mem_of_window {w : Interval} (h : window options q = .ok w) :
    w ∈ q.intervals.getD [] ++ (q.relativeIntervals.getD []).map (·.resolve options.now) := by
  unfold window at h
  cases hintervals : q.intervals with
  | some is =>
      rw [hintervals] at h
      cases is with
      | nil => cases h
      | cons first is =>
          cases h
          simp
  | none =>
      cases hrelative : q.relativeIntervals with
      | none =>
          rw [hintervals, hrelative] at h
          cases h
      | some rs =>
          rw [hintervals, hrelative] at h
          cases rs with
          | nil => cases h
          | cons r rs =>
              cases h
              simp

theorem retention_fits (hq : q.Fits)
    (hwindow : ∀ i ∈ q.intervals.getD [] ++ (q.relativeIntervals.getD []).map (·.resolve options.now),
      i.Moderate)
    (h : retention options q = .ok expanded) :
    expanded.Fits ∧ expanded.intervals = q.intervals ∧
      expanded.relativeIntervals = q.relativeIntervals := by
  have hspellable := retention_spellable hq.spellable h
  obtain ⟨w, hw, -, rfl⟩ := retention_ok h
  have hmoderate := hwindow w (Retention.mem_of_window hw)
  have hmonths := Retention.dated_months hmoderate.start hmoderate.stop
  refine ⟨{ hspellable with
    filter := hq.filter
    intervals := hq.intervals
    aggregations := fun as has a ha => ⟨hspellable.aggregations as has a ha, ?_⟩ }, rfl, rfl⟩
  cases has
  obtain ⟨m, hm, rfl⟩ := List.mem_map.1 (Retention.distinctFrom_subset _ _ _ a ha)
  exact Retention.aggregator_dated options (hmonths m hm)

end Expand

/-- Lowering an aggregator keeps its numbers, and its bins go into the post-aggregator beside it. -/
theorem lowerAggregator_fits (options : Options) {a : Aggregator} (hfits : a.Fits) :
    (lowerAggregator options a).1.Fits ∧ ∀ p ∈ (lowerAggregator options a).2, p.Fits := by
  induction a with
  | filtered filter inner name ih => exact ih hfits
  | userCount name => exact ⟨fits_userSketch options _, by simp [lowerAggregator]⟩
  | eventCount name => exact ⟨trivial, by simp [lowerAggregator]⟩
  | histogram a =>
      refine ⟨⟨fun n hn => ?_, by simp⟩, fun p hp => ?_⟩
      · cases hn
        decide
      · cases hp
        exact ⟨trivial, hfits⟩
  | count _ | column _ _ | thetaSketch _ | hyperUnique _ | cardinality _ | quantilesSketch _ =>
      exact ⟨hfits, by simp [lowerAggregator]⟩

theorem lowerAggregator_dated (options : Options) {a : Aggregator}
    (hdated : ∀ i ∈ a.windows, i.Dated) : ∀ i ∈ (lowerAggregator options a).1.windows, i.Dated := by
  induction a with
  | filtered filter inner name ih =>
      have hinner := ih fun i hi => hdated i (List.mem_append_right _ hi)
      intro i hi
      rcases List.mem_append.1 hi with hi | hi
      · exact hdated i (List.mem_append_left _ hi)
      · exact hinner i hi
  | userCount _ | eventCount _ | histogram _ | count _ | column _ _ | thetaSketch _
  | hyperUnique _ | cardinality _ | quantilesSketch _ => exact List.forall_mem_nil _

theorem lowerConvenience_spellable (options : Options) {q : Query} (hq : q.Spellable) :
    Query.Spellable { q with
      aggregations := (lowerConvenience options q.aggregations q.postAggregations).1
      postAggregations := (lowerConvenience options q.aggregations q.postAggregations).2 } := by
  cases haggregations : q.aggregations with
  | none =>
      exact { hq with aggregations := fun _ h => nomatch h }
  | some as =>
      have hfits (a : Aggregator) (ha : a ∈ as) :=
        lowerAggregator_fits options (hq.aggregations as haggregations a ha)
      refine { hq with
        aggregations := fun bs hbs b hb => ?_
        postAggregations := fun ps hps p hp => ?_ }
      · cases hbs
        obtain ⟨_, hl, rfl⟩ := List.mem_map.1 hb
        obtain ⟨a, ha, rfl⟩ := List.mem_map.1 hl
        exact (hfits a ha).1
      · simp only [lowerConvenience] at hps
        split at hps
        · exact hq.postAggregations ps hps p hp
        · cases hps
          rcases List.mem_append.1 hp with hp | hp
          · cases hpost : q.postAggregations with
            | none =>
                rw [hpost] at hp
                cases hp
            | some ps =>
                rw [hpost] at hp
                exact hq.postAggregations ps hpost p hp
          · obtain ⟨_, hl, hp⟩ := List.mem_filterMap.1 hp
            obtain ⟨a, ha, rfl⟩ := List.mem_map.1 hl
            exact (hfits a ha).2 p hp

theorem lowerConvenience_fits (options : Options) {q : Query} (hq : q.Fits) :
    Query.Fits { q with
      aggregations := (lowerConvenience options q.aggregations q.postAggregations).1
      postAggregations := (lowerConvenience options q.aggregations q.postAggregations).2 } := by
  have hspellable := lowerConvenience_spellable options hq.spellable
  refine { hspellable with
    filter := hq.filter
    intervals := hq.intervals
    aggregations := fun bs hbs b hb => ⟨hspellable.aggregations bs hbs b hb, ?_⟩ }
  rw [lowerConvenience_fst] at hbs
  obtain ⟨as, has, rfl⟩ := Option.map_eq_some_iff.1 hbs
  obtain ⟨a, ha, rfl⟩ := List.mem_map.1 hb
  exact lowerAggregator_dated options (hq.aggregations as has a ha).2

end Expansion

end TenantQuery
