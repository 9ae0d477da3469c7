import TenantQuery.Proofs.PostAggregator.Codec
import TenantQuery.Proofs.PostAggregator.Evaluation
import TenantQuery.Proofs.Validation

namespace TenantQuery

open Outcome

namespace PostAggregator

mutual

/-- Whether a row is all that evaluation needs, with an operand for whatever combines operands. -/
def isLocal : PostAggregator → Bool
  | .constant _ _ => true
  | .fieldAccess _ _ => true
  | .finalizingFieldAccess _ _ => true
  | .hyperUniqueCardinality _ _ => true
  | .arithmetic _ _ operands _ => areLocalOperands operands
  | .extremum _ _ operands => areLocalOperands operands
  | .zScore _ size1 success1 size2 success2 =>
    isLocal size1 && isLocal success1 && isLocal size2 && isLocal success2
  | .pValue _ score => isLocal score
  | .expression _ _ _ => false
  | .sketchEstimate _ _ => false
  | .sketchSetOp _ _ _ _ => false
  | .sketchHistogram _ _ _ => false

def areLocalOperands : Option (List PostAggregator) → Bool
  | none => false
  | some [] => false
  | some (p :: ps) => isLocal p && areLocal ps

def areLocal : List PostAggregator → Bool
  | [] => true
  | p :: ps => isLocal p && areLocal ps

end

theorem areLocal_iff {ps : List PostAggregator} :
    areLocal ps = true ↔ ∀ p ∈ ps, p.isLocal = true := by
  induction ps with
  | nil => simp [areLocal]
  | cons p ps ih => rw [areLocal, Bool.and_eq_true, ih, List.forall_mem_cons]

theorem areLocalOperands_iff {operands : Option (List PostAggregator)} :
    areLocalOperands operands = true ↔
      ∃ ps, operands = some ps ∧ ps ≠ [] ∧ ∀ p ∈ ps, p.isLocal = true := by
  match operands with
  | none => simp [areLocalOperands]
  | some [] => simp [areLocalOperands]
  | some (p :: ps) => simp [areLocalOperands, areLocal_iff]

end PostAggregator

def Row.Models (row : Row) (names : List String) : Prop :=
  ∀ name, name ∈ names ↔ (row.get? name).isSome = true

namespace PostAggregator

theorem evaluates_column {row : Row} {names : List String} (hrow : row.Models names)
    {name : String} : (∃ x, column row name = .ok x) ↔ Resolved (accessWarnings names name) := by
  rw [resolved_accessWarnings, hrow name, column]
  cases row.get? name with
  | none => simp
  | some x => simp

theorem evaluates_each {row : Row} {ps : List PostAggregator} :
    (∃ xs, evaluateEach row ps = .ok xs) ↔ ∀ p ∈ ps, ∃ x, p.evaluate row = .ok x := by
  induction ps with
  | nil => simp [evaluateEach]
  | cons p ps ih =>
      rw [List.forall_mem_cons, ← ih]
      simp only [evaluateEach, bind_eq_ok, pure_eq_ok, Except.ok.injEq]
      grind

theorem length_evaluateEach {row : Row} {ps : List PostAggregator} {xs : List Float}
    (h : evaluateEach row ps = .ok xs) : xs.length = ps.length := by
  induction ps generalizing xs with
  | nil =>
      cases h
      rfl
  | cons p ps ih =>
      simp only [evaluateEach, bind_eq_ok, pure_eq_ok, Except.ok.injEq] at h
      obtain ⟨x, _, ys, hys, rfl⟩ := h
      rw [List.length_cons, List.length_cons, ih hys]

theorem folded_of_ne_nil {what name : String} {combine : Float → Float → Float}
    {values : List Float} (h : values ≠ []) : ∃ x, folded what name combine values = .ok x := by
  cases values with
  | nil => exact absurd rfl h
  | cons x xs => exact ⟨_, rfl⟩

theorem evaluates_folded {row : Row} {ps : List PostAggregator} (hps : ps ≠ [])
    {what name : String} {combine : Float → Float → Float} (adjust : List Float → List Float)
    (hadjust : ∀ xs, adjust xs = [] → xs = []) :
    (∃ x, (do folded what name combine (adjust (← evaluateEach row ps))) = .ok x) ↔
      ∀ p ∈ ps, ∃ x, p.evaluate row = .ok x := by
  rw [← evaluates_each]
  constructor
  · rintro ⟨x, hx⟩
    obtain ⟨xs, hxs, -⟩ := bind_eq_ok.1 hx
    exact ⟨xs, hxs⟩
  · rintro ⟨xs, hxs⟩
    have hne : adjust xs ≠ [] := by
      intro hnil
      have hlength := length_evaluateEach hxs
      rw [hadjust xs hnil] at hlength
      exact hps (List.length_eq_zero_iff.1 hlength.symm)
    rw [hxs]
    exact folded_of_ne_nil hne

/-- A post-aggregator has a value on the row just when validation resolves all its references. -/
theorem evaluates_iff_resolved {row : Row} {names : List String} (hrow : row.Models names)
    {p : PostAggregator} (hlocal : p.isLocal = true) :
    (∃ x, p.evaluate row = .ok x) ↔ Resolved (p.warnings names) := by
  induction p using PostAggregator.induction with
  | constant name value => simp [evaluate, warnings]
  | fieldAccess name fieldName => exact evaluates_column hrow
  | finalizingFieldAccess name fieldName => exact evaluates_column hrow
  | hyperUniqueCardinality name fieldName => exact evaluates_column hrow
  | arithmetic name fn operands ordering ih =>
      obtain ⟨ps, rfl, hne, hps⟩ := areLocalOperands_iff.1 hlocal
      rw [warnings, resolved_append, and_iff_right (resolved_arityWarnings name _),
        resolved_warningsOfAll, evaluate]
      refine (evaluates_folded hne id (fun _ h => h)).trans (forall₂_congr ?_)
      intro p hp
      exact ih ps rfl p hp (hps p hp)
  | extremum kind name operands ih =>
      obtain ⟨ps, rfl, hne, hps⟩ := areLocalOperands_iff.1 hlocal
      rw [warnings, resolved_warningsOfAll, evaluate]
      refine (evaluates_folded hne (List.map kind.adjust) (fun _ => List.map_eq_nil_iff.1)).trans
        (forall₂_congr ?_)
      intro p hp
      exact ih ps rfl p hp (hps p hp)
  | zScore name size1 success1 size2 success2 ih1 ih2 ih3 ih4 =>
      simp only [isLocal, Bool.and_eq_true] at hlocal
      obtain ⟨⟨⟨h1, h2⟩, h3⟩, h4⟩ := hlocal
      simp only [warnings, resolved_append, ← ih1 h1, ← ih2 h2, ← ih3 h3, ← ih4 h4, evaluate,
        bind_eq_ok, pure_eq_ok, Except.ok.injEq]
      grind
  | pValue name score ih =>
      rw [warnings, ← ih hlocal]
      simp only [evaluate, bind_eq_ok, pure_eq_ok, Except.ok.injEq]
      grind
  | expression => cases hlocal
  | sketchEstimate => cases hlocal
  | sketchSetOp => cases hlocal
  | sketchHistogram => cases hlocal

end PostAggregator

namespace Row

open PostAggregator Validation

theorem Models.addPostAggregator {row : Row} {s : State} (hrow : row.Models s.names)
    (p : PostAggregator) (x : Float) :
    (if p.outputName = "" then row else row.set p.outputName x).Models
      (s.addPostAggregator p).names := by
  intro name
  rw [State.mem_names_addPostAggregator, hrow name]
  by_cases hempty : p.outputName = ""
  · simp [hempty]
  · rw [if_neg hempty, get?_set]
    by_cases hname : name = p.outputName
    · simp [hname, hempty]
    · simp [hname]

theorem Models.resolved_addPostAggregators {ps : List PostAggregator}
    (hlocal : ∀ p ∈ ps, p.isLocal = true) {row : Row} {s : State} (hrow : row.Models s.names) :
    Resolved (ps.foldl State.addPostAggregator s).warnings ↔
      Resolved s.warnings ∧ ∃ out, evaluateAll row ps = .ok out := by
  induction ps generalizing row s with
  | nil => simp [evaluateAll]
  | cons p ps ih =>
      rw [List.forall_mem_cons] at hlocal
      have hvalue := evaluates_iff_resolved hrow hlocal.1
      rw [List.foldl_cons, evaluateAll]
      cases hx : p.evaluate row with
      | ok x =>
          rw [ih hlocal.2 (hrow.addPostAggregator p x), State.resolved_addPostAggregator,
            and_iff_left (hvalue.1 ⟨x, hx⟩)]
          rfl
      | error e =>
          -- The reference that is missing is reported here, and the report stays.
          have hopen : ¬ Resolved (p.warnings s.names) := by
            rw [← hvalue, hx]
            simp
          constructor
          · intro h
            exact absurd (State.resolved_addPostAggregator.1
              (State.resolved_of_addPostAggregators h)).2 hopen
          · rintro ⟨-, out, hout⟩
            cases hout

end Row

/-- On a row with the columns that the aggregators name, post-aggregators that need no engine are
evaluated without a failure just when validation finds every reference defined. -/
theorem evaluateAll_isOk_iff_no_unresolved (aggregators : List Aggregator)
    (postAggregators : List PostAggregator) (row : Row)
    (hlocal : ∀ p ∈ postAggregators, p.isLocal = true)
    (hrow : ∀ name, (row.get? name).isSome = true ↔
      name ≠ "" ∧ ∃ a ∈ aggregators, a.outputName = name) :
    (∃ out, PostAggregator.evaluateAll row postAggregators = .ok out) ↔
      ∀ name, Warning.unresolved name ∉ validate none aggregators postAggregators := by
  have hmodels : row.Models (aggregators.foldl Validation.State.addAggregator {}).names := by
    intro name
    rw [hrow name, Validation.State.mem_names_addAggregators, or_iff_right List.not_mem_nil]
  have hstart : Resolved (aggregators.foldl Validation.State.addAggregator {}).warnings :=
    Validation.State.resolved_addAggregators.2 resolved_nil
  have hrun := hmodels.resolved_addPostAggregators hlocal
  rw [and_iff_right hstart] at hrun
  exact hrun.symm

theorem evaluateAll_isOk_halved :
    ∃ out, PostAggregator.evaluateAll (Row.ofList [("n", 3)])
      [.arithmetic "half" .divide (some [.fieldAccess none "n", .constant "two" (.ofFloat 2)]) none,
       .extremum .longLeast "least" (some [.finalizingFieldAccess none "half"])] = .ok out := by
  refine (evaluateAll_isOk_iff_no_unresolved [.count "n", .count ""] _ _ (by decide) ?_).2 ?_
  · intro name
    change (([("n", 3)] : List (String × Float)).lookup name).isSome = true ↔ _
    rw [Json.lookup_cons_ite]
    by_cases hname : name = "n"
    · simp [hname, Aggregator.outputName]
    · simp [hname, Aggregator.outputName, eq_comm]
  · exact fun name => List.not_mem_nil

end TenantQuery
