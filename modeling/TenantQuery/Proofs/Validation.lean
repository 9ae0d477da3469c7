import TenantQuery.Validation
import TenantQuery.Proofs.Filter.Normal

namespace TenantQuery

def Resolved (warnings : List Warning) : Prop :=
  ∀ name, Warning.unresolved name ∉ warnings

@[simp]
theorem resolved_nil : Resolved [] :=
  fun _ => List.not_mem_nil

@[simp]
theorem resolved_append {ws ws' : List Warning} :
    Resolved (ws ++ ws') ↔ Resolved ws ∧ Resolved ws' := by
  simp only [Resolved, List.mem_append, not_or, forall_and]

@[simp]
theorem resolved_singleton {w : Warning} : Resolved [w] ↔ ∀ name, w ≠ .unresolved name := by
  simp only [Resolved, List.mem_singleton, ne_comm, ne_eq]

namespace Filter

theorem warningsOfAll_eq_flatMap (fs : List Filter) : warningsOfAll fs = fs.flatMap warnings := by
  induction fs with
  | nil => rfl
  | cons f fs ih => rw [warningsOfAll, ih, List.flatMap_cons]

/-- All that a filter can be blamed for is a junction of nothing. -/
theorem eq_emptyJunction_of_mem_warnings (f : Filter) :
    ∀ w ∈ f.warnings, ∃ op, w = .emptyJunction op := by
  induction f using Filter.induction with
  | test p => simp [warnings]
  | constant b => simp [warnings]
  | not f ih => rwa [warnings]
  | absent op => simp [warnings]
  | junction op fs ih =>
      cases fs with
      | nil => simp [warnings]
      | cons f fs =>
          intro w hw
          rw [warnings, warningsOfAll_eq_flatMap, ← List.flatMap_cons, List.mem_flatMap] at hw
          obtain ⟨g, hg, hw⟩ := hw
          exact ih g hg w hw

theorem resolved_warnings (f : Filter) : Resolved f.warnings := by
  intro name hname
  obtain ⟨op, hop⟩ := f.eq_emptyJunction_of_mem_warnings _ hname
  cases hop

theorem warnings_eq_nil_of_isNormal {f : Filter} (h : f.isNormal = true) : f.warnings = [] := by
  induction f using Filter.induction with
  | test p => rfl
  | constant b => rfl
  | not f ih =>
      rw [isNormal, Bool.and_eq_true] at h
      exact ih h.2
  | absent op => cases h
  | junction op fs ih =>
      rw [isNormal, Bool.and_eq_true, areNormal_iff, decide_eq_true_eq] at h
      cases fs with
      | nil => exact absurd h.1 (by decide)
      | cons f fs =>
          rw [warnings, warningsOfAll_eq_flatMap, ← List.flatMap_cons, List.flatMap_eq_nil_iff]
          intro g hg
          exact ih g hg (h.2 g hg).2

end Filter

theorem Aggregator.resolved_warnings (a : Aggregator) : Resolved a.warnings := by
  induction a with
  | filtered filter inner name ih =>
      exact resolved_append.2 ⟨filter.resolved_warnings, ih⟩
  | _ => simp [warnings, isConvenience]

namespace PostAggregator

theorem warningsOfAll_eq_flatMap (names : List String) (ps : List PostAggregator) :
    warningsOfAll names ps = ps.flatMap (warnings names) := by
  induction ps with
  | nil => rfl
  | cons p ps ih => rw [warningsOfAll, ih, List.flatMap_cons]

theorem resolved_warningsOfAll {names : List String} {ps : List PostAggregator} :
    Resolved (warningsOfAll names ps) ↔ ∀ p ∈ ps, Resolved (p.warnings names) := by
  induction ps with
  | nil => simp [warningsOfAll]
  | cons p ps ih => rw [warningsOfAll, resolved_append, ih, List.forall_mem_cons]

theorem resolved_arityWarnings (name : String) (count : Nat) :
    Resolved (arityWarnings name count) := by
  rw [arityWarnings]
  split
  · simp
  · exact resolved_nil

theorem resolved_accessWarnings {names : List String} {name : String} :
    Resolved (accessWarnings names name) ↔ name ∈ names := by
  by_cases h : name ∈ names
  · simp [accessWarnings, h]
  · simp [accessWarnings, h]

end PostAggregator

namespace Validation.State

@[simp]
theorem names_warn (s : State) (ws : List Warning) : (s.warn ws).names = s.names := rfl

@[simp]
theorem warnings_warn (s : State) (ws : List Warning) :
    (s.warn ws).warnings = s.warnings ++ ws := rfl

theorem mem_names_define {s : State} {name other : String} :
    other ∈ (s.define name).names ↔ other ∈ s.names ∨ name ≠ "" ∧ other = name := by
  rw [define]
  by_cases hempty : name = ""
  · simp [hempty]
  · rw [if_neg hempty]
    split
    case isTrue h =>
      rw [List.contains_iff_mem] at h
      grind [names_warn]
    case isFalse h => grind

theorem resolved_define {s : State} {name : String} :
    Resolved (s.define name).warnings ↔ Resolved s.warnings := by
  rw [define]
  split
  · rfl
  · split
    · simp
    · rfl

section Visits

variable {α : Type} (report : List String → α → List Warning) (nameOf : α → String)

/-- One step of validation: an item is looked at with the names so far, then its name is defined. -/
def visit (s : State) (x : α) : State :=
  (s.warn (report s.names x)).define (nameOf x)

theorem mem_names_visit {s : State} {x : α} {name : String} :
    name ∈ (s.visit report nameOf x).names ↔ name ∈ s.names ∨ name ≠ "" ∧ nameOf x = name := by
  rw [visit, mem_names_define, names_warn]
  grind

/-- The names in force are those that were defined on the way. -/
theorem mem_names_visits {xs : List α} {s : State} {name : String} :
    name ∈ (xs.foldl (visit report nameOf) s).names ↔
      name ∈ s.names ∨ name ≠ "" ∧ ∃ x ∈ xs, nameOf x = name := by
  induction xs generalizing s with
  | nil => simp
  | cons x xs ih =>
      rw [List.foldl_cons, ih, mem_names_visit, List.exists_mem_cons_iff]
      grind

end Visits

theorem resolved_addAggregator {s : State} {a : Aggregator} :
    Resolved (s.addAggregator a).warnings ↔ Resolved s.warnings := by
  rw [addAggregator, resolved_define, warnings_warn, resolved_append]
  exact and_iff_left a.resolved_warnings

theorem mem_names_addAggregators {aggregators : List Aggregator} {s : State} {name : String} :
    name ∈ (aggregators.foldl addAggregator s).names ↔
      name ∈ s.names ∨ name ≠ "" ∧ ∃ a ∈ aggregators, a.outputName = name :=
  mem_names_visits (fun _ => Aggregator.warnings) Aggregator.outputName

theorem resolved_addAggregators {aggregators : List Aggregator} {s : State} :
    Resolved (aggregators.foldl addAggregator s).warnings ↔ Resolved s.warnings := by
  induction aggregators generalizing s with
  | nil => rfl
  | cons a aggregators ih => rw [List.foldl_cons, ih, resolved_addAggregator]

theorem mem_names_addPostAggregator {s : State} {p : PostAggregator} {name : String} :
    name ∈ (s.addPostAggregator p).names ↔
      name ∈ s.names ∨ p.outputName ≠ "" ∧ name = p.outputName := by
  rw [addPostAggregator, mem_names_define, names_warn]

theorem mem_names_addPostAggregators {ps : List PostAggregator} {s : State} {name : String} :
    name ∈ (ps.foldl addPostAggregator s).names ↔
      name ∈ s.names ∨ name ≠ "" ∧ ∃ p ∈ ps, p.outputName = name :=
  mem_names_visits PostAggregator.warnings PostAggregator.outputName

theorem resolved_addPostAggregator {s : State} {p : PostAggregator} :
    Resolved (s.addPostAggregator p).warnings ↔
      Resolved s.warnings ∧ Resolved (p.warnings s.names) := by
  rw [addPostAggregator, resolved_define, warnings_warn, resolved_append]

theorem resolved_of_addPostAggregators {ps : List PostAggregator} {s : State}
    (h : Resolved (ps.foldl addPostAggregator s).warnings) : Resolved s.warnings := by
  induction ps generalizing s with
  | nil => exact h
  | cons p ps ih => exact (resolved_addPostAggregator.1 (ih h)).1

/-- The same state after other warnings were given first. -/
def after (ws : List Warning) (s : State) : State :=
  { s with warnings := ws ++ s.warnings }

theorem warn_after (ws : List Warning) (s : State) (ws' : List Warning) :
    (s.after ws).warn ws' = (s.warn ws').after ws := by
  simp [after, warn]

theorem define_after (ws : List Warning) (s : State) (name : String) :
    (s.after ws).define name = (s.define name).after ws := by
  by_cases hempty : name = ""
  · simp [define, hempty]
  · by_cases hmem : name ∈ s.names
    · simp [define, hempty, hmem, after, warn]
    · simp [define, hempty, hmem, after]

theorem addAggregator_after (ws : List Warning) (s : State) (a : Aggregator) :
    (s.after ws).addAggregator a = (s.addAggregator a).after ws := by
  rw [addAggregator, warn_after, define_after, ← addAggregator]

theorem addPostAggregator_after (ws : List Warning) (s : State) (p : PostAggregator) :
    (s.after ws).addPostAggregator p = (s.addPostAggregator p).after ws := by
  change ((s.after ws).warn (p.warnings s.names)).define p.outputName = _
  rw [warn_after, define_after, ← addPostAggregator]

theorem addAggregators_after (ws : List Warning) (aggregators : List Aggregator) (s : State) :
    aggregators.foldl addAggregator (s.after ws) = (aggregators.foldl addAggregator s).after ws :=
  List.foldl_hom (after ws) (addAggregator_after ws)

theorem addPostAggregators_after (ws : List Warning) (ps : List PostAggregator) (s : State) :
    ps.foldl addPostAggregator (s.after ws) = (ps.foldl addPostAggregator s).after ws :=
  List.foldl_hom (after ws) (addPostAggregator_after ws)

end Validation.State

/-- What is said about the filter comes first, and nothing else depends on the filter. -/
theorem validate_eq_append (filter : Option Filter) (aggregators : List Aggregator)
    (postAggregators : List PostAggregator) :
    validate filter aggregators postAggregators =
      (filter.map Filter.warnings).getD [] ++ validate none aggregators postAggregators := by
  have hstart : ({ warnings := (filter.map Filter.warnings).getD [] } : Validation.State) =
      Validation.State.after ((filter.map Filter.warnings).getD []) {} := by
    simp [Validation.State.after]
  rw [validate, hstart, Validation.State.addAggregators_after,
    Validation.State.addPostAggregators_after]
  rfl

end TenantQuery
