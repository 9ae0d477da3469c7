import TenantQuery.Expansion.Funnel
import TenantQuery.Proofs.Expansion.Sketch

namespace TenantQuery.Expansion

open TenantQuery.Filter

namespace Funnel

theorem toList_sketchName (i : Nat) :
    (sketchName i).toList = "_funnel_step_".toList ++ Nat.toDigits 10 i := by
  rw [sketchName, String.toList_append]
  exact congrArg _ Nat.toList_repr

theorem sketchName_injective {i j : Nat} (h : sketchName i = sketchName j) : i = j := by
  have hlist := congrArg String.toList h
  rw [toList_sketchName, toList_sketchName] at hlist
  have hdigits := List.append_cancel_left hlist
  rw [← Nat.ofDigitChars_ten_toDigits (n := i), hdigits, Nat.ofDigitChars_ten_toDigits]

def countName (names : List String) (i : Nat) : String :=
  toString i ++ "_" ++ label names i

theorem toList_countName (names : List String) (i : Nat) :
    (countName names i).toList = Nat.toDigits 10 i ++ '_' :: (label names i).toList := by
  rw [countName, String.toList_append, String.toList_append]
  have hdigits : (toString i).toList = Nat.toDigits 10 i := Nat.toList_repr
  rw [hdigits, List.append_assoc]
  rfl

theorem takeWhile_countName (names : List String) (i : Nat) :
    (countName names i).toList.takeWhile (· ≠ '_') = Nat.toDigits 10 i := by
  rw [toList_countName, List.takeWhile_append_of_pos]
  · simp
  · intro c hc
    have hne : c ≠ '_' := fun h => Nat.underscore_not_in_toDigits (h ▸ hc)
    simpa using hne

theorem countName_injective {names : List String} {i j : Nat}
    (h : countName names i = countName names j) : i = j := by
  have hdigits : Nat.toDigits 10 i = Nat.toDigits 10 j := by
    rw [← takeWhile_countName names i, h, takeWhile_countName]
  rw [← Nat.ofDigitChars_ten_toDigits (n := i), hdigits, Nat.ofDigitChars_ten_toDigits]

theorem sketchName_ne_countName (names : List String) (i j : Nat) :
    sketchName i ≠ countName names j := by
  intro h
  have hlist := congrArg (fun s => s.toList.takeWhile (· ≠ '_')) h
  simp only [takeWhile_countName, toList_sketchName] at hlist
  have hempty : Nat.toDigits 10 j = [] := hlist.symm
  exact Nat.toDigits_ne_nil hempty

theorem outputName_aggregators (options : Options) (steps : List Filter) :
    (aggregators options steps).map Aggregator.outputName =
      (List.range steps.length).map sketchName := by
  rw [aggregators, List.map_map, List.range_eq_range', ← List.zipIdx_map_snd 0 steps, List.map_map]
  rfl

theorem outputName_postAggregators (names : List String) (count : Nat) :
    (postAggregators names count).map PostAggregator.outputName =
      (List.range count).map (countName names) := by
  rw [postAggregators, List.map_map]
  rfl

theorem nodup_aggregators (options : Options) (steps : List Filter) :
    ((aggregators options steps).map Aggregator.outputName).Nodup := by
  rw [outputName_aggregators]
  exact List.nodup_range.map fun i j h => sketchName_injective h

theorem nodup_outputNames (options : Options) (steps : List Filter) (names : List String) :
    ((aggregators options steps).map Aggregator.outputName ++
      (postAggregators names steps.length).map PostAggregator.outputName).Nodup := by
  rw [List.nodup_append]
  refine ⟨nodup_aggregators options steps, ?_, ?_⟩
  · rw [outputName_postAggregators]
    exact List.nodup_range.map fun i j h => countName_injective h
  · rw [outputName_aggregators, outputName_postAggregators]
    intro a ha b hb
    obtain ⟨i, -, rfl⟩ := List.mem_map.1 ha
    obtain ⟨j, -, rfl⟩ := List.mem_map.1 hb
    exact sketchName_ne_countName names i j

theorem getElem?_aggregators (options : Options) (steps : List Filter) (i : Nat) :
    (aggregators options steps)[i]? =
      steps[i]?.map fun step => options.filteredSketch step (sketchName i) := by
  rw [aggregators, List.getElem?_map, List.getElem?_zipIdx, Option.map_map]
  simp [Function.comp_def]

theorem mem_aggregators (options : Options) {steps : List Filter} {i : Nat} {step : Filter}
    (hstep : steps[i]? = some step) :
    options.filteredSketch step (sketchName i) ∈ aggregators options steps := by
  refine List.mem_of_getElem? (i := i) ?_
  rw [getElem?_aggregators, hstep, Option.map_some]

end Funnel

/-- The users in the sketch of a step are the users that take it: the filter of the expanded query
lets every event of a step through. -/
theorem usersOf_sketchName {options : Options} {q out : Query} {steps : List Filter}
    (hfilter : out.filter = allOf [q.filter, anyOf (steps.map some)])
    (haggs : out.aggregations = some (Funnel.aggregators options steps)) (events : List Event)
    {i : Nat} {step : Filter} (hstep : steps[i]? = some step) :
    out.usersOf events (Funnel.sketchName i) = some {u | Takes options q events step u} := by
  refine (Query.usersOf_of_mem haggs (Funnel.nodup_aggregators options steps)
    (Funnel.mem_aggregators options hstep) events).trans ?_
  refine users_filteredSketch_of_row _ _ fun e hmatch => ?_
  rw [hfilter]
  exact matchesOptional_allOf_anyOf q.filter (List.mem_of_getElem? hstep) hmatch

theorem users_reached {options : Options} {q : Query} {steps : List Filter} {events : List Event}
    {sketch : String → Option (Set String)}
    (hsketch : ∀ (j : Nat) (step : Filter), steps[j]? = some step →
      sketch (Funnel.sketchName j) = some {u | Takes options q events step u})
    {i : Nat} (hi : i < steps.length) :
    (Funnel.reached i).users sketch =
      some {u | ∀ j ≤ i, ∃ step, steps[j]? = some step ∧ Takes options q events step u} := by
  have hset (j : Nat) (hj : j < steps.length) : sketch (Funnel.sketchName j) =
      some {u | ∃ step, steps[j]? = some step ∧ Takes options q events step u} := by
    have hstep : steps[j]? = some steps[j] := List.getElem?_eq_getElem hj
    rw [hsketch j steps[j] hstep]
    simp [hstep]
  by_cases hzero : i = 0
  · subst hzero
    rw [Funnel.reached, if_pos rfl, PostAggregator.users_access, hset 0 hi]
    simp
  · have hall : ∀ j ∈ List.range (i + 1), sketch (Funnel.sketchName j) =
        some {u | ∃ step, steps[j]? = some step ∧ Takes options q events step u} := by
      intro j hj
      exact hset j (by have := List.mem_range.1 hj; omega)
    rw [Funnel.reached, if_neg hzero, users_intersection (by simp) hall]
    simp

/-- A funnel with steps is expanded to a query whose output names are distinct and whose count at
position `i` is the number of users that took step `i` and every step before it. -/
theorem funnel_counts (options : Options) (q : Query) (steps : List Filter)
    (hsteps : q.steps = some steps) (hne : steps ≠ []) (events : List Event) :
    ∃ out aggs posts, funnel options q = .ok out ∧ out.aggregations = some aggs ∧
      out.postAggregations = some posts ∧ posts.length = steps.length ∧
      (aggs.map Aggregator.outputName ++ posts.map PostAggregator.outputName).Nodup ∧
      ∀ i < steps.length, ∃ p, posts[i]? = some p ∧
        p.estimate (out.usersOf events) =
          some {u | ∀ j ≤ i, ∃ step, steps[j]? = some step ∧
            Takes options q events step u}.ncard := by
  obtain ⟨first, rest, rfl⟩ := List.exists_cons_of_ne_nil hne
  refine ⟨_, _, _, by rw [funnel, hsteps], rfl, rfl, ?_, ?_, ?_⟩
  · simp [Funnel.postAggregators]
  · exact Funnel.nodup_outputNames options (first :: rest) (q.stepNames.getD [])
  · intro i hi
    refine ⟨.sketchEstimate (Funnel.countName (q.stepNames.getD []) i) (Funnel.reached i), ?_, ?_⟩
    · rw [Funnel.postAggregators, List.getElem?_map, List.getElem?_range hi, Option.map_some]
      rfl
    · rw [PostAggregator.estimate, users_reached
        (fun j step hstep => usersOf_sketchName rfl rfl events hstep) hi, Option.map_some]

theorem funnel_counts_two_steps :
    ∃ out posts p,
      funnel ⟨"", ⟨0⟩⟩ {
        queryType := .funnel, granularity := .all, stepNames := some ["launch"]
        steps := some [.selector "type" "launch", .selector "type" "buy"] } = .ok out ∧
      out.postAggregations = some posts ∧ posts[1]? = some p ∧
      p.estimate (out.usersOf [typedEvent "ann" "launch", typedEvent "bob" "launch",
        typedEvent "ann" "buy"]) = some 1 := by
  obtain ⟨out, _, posts, hout, -, hposts, -, -, hcount⟩ := funnel_counts ⟨"", ⟨0⟩⟩
    { queryType := .funnel, granularity := .all, stepNames := some ["launch"]
      steps := some [.selector "type" "launch", .selector "type" "buy"] }
    [.selector "type" "launch", .selector "type" "buy"] rfl (by simp)
    [typedEvent "ann" "launch", typedEvent "bob" "launch", typedEvent "ann" "buy"]
  obtain ⟨p, hp, hvalue⟩ := hcount 1 (by simp)
  refine ⟨out, posts, p, hout, hposts, hp, hvalue.trans ?_⟩
  rw [Option.some.injEq, Set.ncard_eq_one]
  refine ⟨"ann", ?_⟩
  ext u
  have hann : (("ann" = u ∨ "bob" = u) ∧ "ann" = u) ↔ u = "ann" := by
    constructor
    · rintro ⟨-, hu⟩
      exact hu.symm
    · rintro rfl
      exact ⟨Or.inl rfl, rfl⟩
  simpa [Nat.le_one_iff_eq_zero_or_eq_one, Takes, matches_selector, MatchesOptional, typedEvent,
    Options.userDimension, defaultUserField] using hann

end TenantQuery.Expansion
