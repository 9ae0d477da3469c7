import TenantQuery.Expansion.Experiment
import TenantQuery.Proofs.Expansion.Shape
import TenantQuery.Proofs.Expansion.Sketch
import TenantQuery.Proofs.PostAggregator.Evaluation

namespace TenantQuery

noncomputable def Query.sizes (q : Query) (events : List Event) : List (String × Float) :=
  (q.aggregations.getD []).filterMap fun a =>
    (a.users (q.Admits events)).map fun users => (a.outputName, Float.ofNat users.ncard)

noncomputable def Query.estimates (q : Query) (events : List Event) : List (String × Float) :=
  (q.postAggregations.getD []).filterMap fun p =>
    (p.estimate (q.usersOf events)).map fun count => (p.outputName, Float.ofNat count)

def PostAggregator.isEstimate : PostAggregator → Bool
  | .sketchEstimate _ _ => true
  | _ => false

/-- The row that a query gives where sketches are exact. The estimates are there before the other
post-aggregators are evaluated. -/
noncomputable def Query.answer (q : Query) (events : List Event) : Except CompileError Row :=
  PostAggregator.evaluateAll (.ofList (q.sizes events ++ q.estimates events))
    ((q.postAggregations.getD []).filter fun p => !p.isEstimate)

namespace Expansion

open TenantQuery.Filter

namespace Experiment

theorem cohort_eq_ok {sample : Option NamedFilter} {f : Filter}
    (h : sample.bind (·.filter) = some f) (field : String) : cohort field sample = .ok f := by
  obtain ⟨⟨filter, name⟩, rfl, hfilter⟩ := Option.bind_eq_some_iff.1 h
  cases hfilter
  rfl

noncomputable def size (options : Options) (q : Query) (events : List Event) (sample : Filter) :
    Float :=
  Float.ofNat {u | Takes options q events sample u}.ncard

noncomputable def converted (options : Options) (q : Query) (events : List Event)
    (sample success : Filter) : Float :=
  Float.ofNat {u | Takes options q events sample u ∧ Takes options q events success u}.ncard

def cohorts (sample1 sample2 success : Filter) : List (Filter × String) :=
  [(sample1, cohort1), (sample2, cohort2), (success, Experiment.success)]

structure Expands (options : Options) (q : Query) (sample1 sample2 success : Filter) (out : Query) :
    Prop where
  filter : out.filter =
    allOf [q.filter, anyOf (((cohorts sample1 sample2 success).map (·.1)).map some)]
  aggregations : out.aggregations =
    some ((cohorts sample1 sample2 success).map fun c => options.filteredSketch c.1 c.2)
  postAggregations : out.postAggregations = some postAggregators

variable {options : Options} {q out : Query} {sample1 sample2 success : Filter}

theorem Expands.users (h : Expands options q sample1 sample2 success out) (events : List Event)
    {c : Filter × String} (hc : c ∈ cohorts sample1 sample2 success) :
    (options.filteredSketch c.1 c.2).users (out.Admits events) =
      some {u | Takes options q events c.1 u} := by
  refine users_filteredSketch_of_row c.1 c.2 fun e hmatch => ?_
  rw [h.filter]
  exact matchesOptional_allOf_anyOf q.filter (List.mem_map_of_mem hc) hmatch

theorem Expands.usersOf (h : Expands options q sample1 sample2 success out) (events : List Event)
    {c : Filter × String} (hc : c ∈ cohorts sample1 sample2 success) :
    out.usersOf events c.2 = some {u | Takes options q events c.1 u} := by
  have hnodup : [cohort1, cohort2, Experiment.success].Nodup := by decide
  have hname : (options.filteredSketch c.1 c.2).outputName = c.2 := rfl
  rw [← h.users events hc, ← hname]
  exact Query.usersOf_of_mem h.aggregations hnodup (List.mem_map_of_mem hc) events

theorem Expands.sizes (h : Expands options q sample1 sample2 success out) (events : List Event) :
    out.sizes events =
      (cohorts sample1 sample2 success).map fun c => (c.2, size options q events c.1) := by
  rw [Query.sizes, h.aggregations, Option.getD_some, List.filterMap_map, ← List.filterMap_eq_map]
  refine List.filterMap_congr fun c hc => ?_
  rw [Function.comp_apply, h.users events hc]
  rfl

theorem Expands.estimate (h : Expands options q sample1 sample2 success out) (events : List Event)
    {c : Filter × String} (hc : c ∈ cohorts sample1 sample2 success) (name : String) :
    (successes name c.2).estimate (out.usersOf events) =
      some {u | Takes options q events c.1 u ∧ Takes options q events success u}.ncard := by
  have hlast : (success, Experiment.success) ∈ cohorts sample1 sample2 success := by
    simp [cohorts]
  exact estimate_intersection (h.usersOf events hc) (h.usersOf events hlast) name

theorem Expands.estimates (h : Expands options q sample1 sample2 success out) (events : List Event) :
    out.estimates events =
      [(cohort1Success, converted options q events sample1 success),
       (cohort2Success, converted options q events sample2 success)] := by
  have hfirst : (sample1, cohort1) ∈ cohorts sample1 sample2 success := by
    simp [cohorts]
  have hsecond : (sample2, cohort2) ∈ cohorts sample1 sample2 success := by
    simp [cohorts]
  rw [Query.estimates, h.postAggregations, Option.getD_some, postAggregators]
  simp only [List.filterMap_cons, h.estimate events hfirst, h.estimate events hsecond,
    Option.map_some]
  rfl

theorem exists_expands (options : Options) {q : Query} {sample1 sample2 success : Filter}
    (hsample1 : q.sample1.bind (·.filter) = some sample1)
    (hsample2 : q.sample2.bind (·.filter) = some sample2)
    (hsuccess : q.successCriterion.bind (·.filter) = some success) :
    ∃ out, experiment options q = .ok out ∧ Expands options q sample1 sample2 success out := by
  have hok : ∃ out, experiment options q = .ok out := by
    rw [experiment, cohort_eq_ok hsample1, cohort_eq_ok hsample2, cohort_eq_ok hsuccess]
    exact ⟨_, rfl⟩
  obtain ⟨out, hout⟩ := hok
  obtain ⟨f1, f2, f3, h1, h2, h3, rfl⟩ := experiment_ok hout
  cases hsample1.symm.trans h1
  cases hsample2.symm.trans h2
  cases hsuccess.symm.trans h3
  exact ⟨_, hout, rfl, rfl, rfl⟩

noncomputable def counts (options : Options) (q : Query) (events : List Event)
    (sample1 sample2 success : Filter) : List (String × Float) :=
  [(cohort1, size options q events sample1), (cohort2, size options q events sample2),
   (Experiment.success, size options q events success),
   (cohort1Success, converted options q events sample1 success),
   (cohort2Success, converted options q events sample2 success)]

theorem get?_counts (options : Options) (q : Query) (events : List Event)
    (sample1 sample2 success : Filter) :
    ∀ c ∈ counts options q events sample1 sample2 success,
      (Row.ofList (counts options q events sample1 sample2 success)).get? c.1 = some c.2 := by
  have hnodup : ((counts options q events sample1 sample2 success).map (·.1)).Nodup :=
    show [cohort1, cohort2, Experiment.success, cohort1Success, cohort2Success].Nodup by decide
  exact fun c hc => Row.get?_ofList hnodup hc

noncomputable def score (options : Options) (q : Query) (events : List Event)
    (sample1 sample2 success : Filter) : Float :=
  Statistics.zScore (size options q events sample1) (converted options q events sample1 success)
    (size options q events sample2) (converted options q events sample2 success)

theorem Expands.answer (h : Expands options q sample1 sample2 success out) (events : List Event) :
    ∃ row, out.answer events = .ok row ∧
      (∀ c ∈ counts options q events sample1 sample2 success, row.get? c.1 = some c.2) ∧
      row.get? zScore = some (score options q events sample1 sample2 success) ∧
      row.get? pValue =
        some (Statistics.pValue (score options q events sample1 sample2 success)) := by
  have hposts : (out.postAggregations.getD []).filter (fun p => !p.isEstimate) =
      [.zScore zScore (PostAggregator.finalizingAccess cohort1) (PostAggregator.access cohort1Success)
        (PostAggregator.finalizingAccess cohort2) (PostAggregator.access cohort2Success),
       .pValue pValue (PostAggregator.access zScore)] := by
    rw [h.postAggregations]
    rfl
  have hcounts : out.sizes events ++ out.estimates events =
      counts options q events sample1 sample2 success := by
    rw [h.sizes, h.estimates]
    rfl
  rw [Query.answer, hposts, hcounts]
  have hread := get?_counts options q events sample1 sample2 success
  -- Of the row nothing matters but what is read from it.
  generalize Row.ofList (counts options q events sample1 sample2 success) = row at hread ⊢
  have hscore : PostAggregator.evaluate row (.zScore zScore (PostAggregator.finalizingAccess cohort1)
      (PostAggregator.access cohort1Success) (PostAggregator.finalizingAccess cohort2)
      (PostAggregator.access cohort2Success)) =
        .ok (score options q events sample1 sample2 success) := by
    simp only [counts, List.forall_mem_cons] at hread
    obtain ⟨hn1, hn2, -, hk1, hk2, -⟩ := hread
    exact PostAggregator.evaluate_zScore zScore (PostAggregator.evaluate_finalizingAccess hn1)
      (PostAggregator.evaluate_access hk1) (PostAggregator.evaluate_finalizingAccess hn2)
      (PostAggregator.evaluate_access hk2)
  have hvalue := PostAggregator.evaluate_pValue pValue (PostAggregator.evaluate_access
    (row.get?_set_self zScore (score options q events sample1 sample2 success)))
  rw [PostAggregator.evaluateAll_cons hscore (by decide)]
  refine ⟨_, PostAggregator.evaluateAll_cons hvalue (by decide) [], fun c hc => ?_, ?_, ?_⟩
  · have hnames : ∀ name ∈ [cohort1, cohort2, Experiment.success, cohort1Success, cohort2Success],
        name ≠ zScore ∧ name ≠ pValue := by decide
    obtain ⟨hz, hp⟩ := hnames c.1 (List.mem_map_of_mem (f := Prod.fst) hc)
    exact (Row.get?_set_of_ne _ _ hp).trans ((Row.get?_set_of_ne _ _ hz).trans (hread c hc))
  · exact (Row.get?_set_of_ne _ _ (by decide)).trans (Row.get?_set_self _ _ _)
  · exact Row.get?_set_self _ _ _

end Experiment

/-- An experiment is expanded to a query that counts the users of each cohort and those of them that
succeed, and that gives the score of the two proportions and its p-value. -/
theorem experiment_counts (options : Options) (q : Query) (sample1 sample2 success : Filter)
    (hsample1 : q.sample1.bind (·.filter) = some sample1)
    (hsample2 : q.sample2.bind (·.filter) = some sample2)
    (hsuccess : q.successCriterion.bind (·.filter) = some success) (events : List Event) :
    ∃ out row, experiment options q = .ok out ∧ out.answer events = .ok row ∧
      row.get? "cohort_1" = some (Experiment.size options q events sample1) ∧
      row.get? "cohort_2" = some (Experiment.size options q events sample2) ∧
      row.get? "cohort_1_success" = some (Experiment.converted options q events sample1 success) ∧
      row.get? "cohort_2_success" = some (Experiment.converted options q events sample2 success) ∧
      row.get? "zscore" = some (Statistics.zScore
        (Experiment.size options q events sample1)
        (Experiment.converted options q events sample1 success)
        (Experiment.size options q events sample2)
        (Experiment.converted options q events sample2 success)) ∧
      row.get? "pvalue" = (row.get? "zscore").map Statistics.pValue := by
  obtain ⟨out, hout, hexpands⟩ := Experiment.exists_expands options hsample1 hsample2 hsuccess
  obtain ⟨row, hrow, hcounts, hscore, hvalue⟩ := hexpands.answer events
  simp only [Experiment.counts, List.forall_mem_cons] at hcounts
  obtain ⟨hsize1, hsize2, -, hconverted1, hconverted2, -⟩ := hcounts
  refine ⟨out, row, hout, hrow, hsize1, hsize2, hconverted1, hconverted2, hscore, ?_⟩
  exact hvalue.trans (congrArg (Option.map Statistics.pValue) hscore).symm

/-- Of two users in the first cohort one succeeds, in another event than the one that makes it a
member; of the second cohort none does. -/
theorem experiment_counts_across_events :
    ∃ out row,
      experiment ⟨"", ⟨0⟩⟩ {
        queryType := .experiment, granularity := .all
        sample1 := some ⟨some (.selector "type" "blue"), "blue"⟩
        sample2 := some ⟨some (.selector "type" "red"), "red"⟩
        successCriterion := some ⟨some (.selector "type" "buy"), ""⟩ } = .ok out ∧
      out.answer [typedEvent "ann" "blue", typedEvent "bob" "blue", typedEvent "cid" "red",
        typedEvent "ann" "buy"] = .ok row ∧
      row.get? "cohort_1" = some (Float.ofNat 2) ∧
      row.get? "cohort_1_success" = some (Float.ofNat 1) ∧
      row.get? "cohort_2_success" = some (Float.ofNat 0) := by
  let visits := [("ann", "blue"), ("bob", "blue"), ("cid", "red"), ("ann", "buy")]
  let q : Query := {
    queryType := .experiment, granularity := .all
    sample1 := some ⟨some (.selector "type" "blue"), "blue"⟩
    sample2 := some ⟨some (.selector "type" "red"), "red"⟩
    successCriterion := some ⟨some (.selector "type" "buy"), ""⟩ }
  obtain ⟨out, row, hout, hrow, hsize, -, hconverted1, hconverted2, -⟩ :=
    experiment_counts ⟨"", ⟨0⟩⟩ q (.selector "type" "blue") (.selector "type" "red")
      (.selector "type" "buy") rfl rfl rfl (visits.map fun c => typedEvent c.1 c.2)
  have htakes := takes_typedEvent (q := q) rfl ⟨0⟩ visits
  refine ⟨out, row, hout, hrow, hsize.trans ?_, hconverted1.trans ?_, hconverted2.trans ?_⟩
  · have husers : {u | (u, "blue") ∈ visits} = {"ann", "bob"} := by
      ext u
      simp [visits]
    simp only [Experiment.size, htakes, husers]
    rw [Set.ncard_pair (by decide)]
  · have husers : {u | (u, "blue") ∈ visits ∧ (u, "buy") ∈ visits} = {"ann"} := by
      ext u
      simpa [visits] using Or.inl
    simp only [Experiment.converted, htakes, husers]
    rw [Set.ncard_singleton]
  · have husers : {u | (u, "red") ∈ visits ∧ (u, "buy") ∈ visits} = ∅ := by
      ext u
      simp only [visits, Set.mem_ofPred_eq, Set.mem_empty_iff_false, iff_false]
      rintro ⟨hred, hbuy⟩
      simp_all
    simp only [Experiment.converted, htakes, husers]
    rw [Set.ncard_empty]

end Expansion

end TenantQuery
