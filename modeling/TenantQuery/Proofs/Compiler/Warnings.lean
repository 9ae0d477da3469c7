import TenantQuery.Proofs.Compiler.Phases
import TenantQuery.Proofs.Validation

namespace TenantQuery.Compiler

open Outcome

variable {c : Compiler} {q : Query} {organization : List Uuid} {superOrg : Bool}

theorem precompile_records {p : Precompiled} {records : List LogRecord}
    (h : c.precompile q organization superOrg = .ok (p, records)) :
    records = (warningsOf p.query).map (warningRecord p.hash) ++
      [precompiledRecord p (Scope.policyOf q)] := by
  simp only [precompile, bind_eq_ok] at h
  obtain ⟨_, -, out, -, hash, -, h⟩ := h
  rw [pure_eq_ok, Except.ok.injEq, Prod.mk.injEq] at h
  obtain ⟨rfl, rfl⟩ := h
  rfl

theorem precompile_of_lower_error {e : CompileError} (h : c.lower q = .error e) :
    c.precompile q organization superOrg = .error (.compile e) := by
  rw [precompile, h]
  rfl

theorem isNormal_placed (c : Compiler) (policy : Policy) (lowered : Query) (scope : Option Filter) :
    ∀ f ∈ (c.placed policy lowered scope).filter, f.isNormal = true := by
  intro f hf
  rw [placed_eq, Option.mem_def, Option.map_eq_some_iff] at hf
  obtain ⟨g, -, rfl⟩ := hf
  exact Filter.isNormal_normalize g

theorem warningsOf_placed (c : Compiler) (policy : Policy) (lowered : Query)
    (scope : Option Filter) :
    warningsOf lowered = (lowered.filter.map Filter.warnings).getD [] ++
      warningsOf (c.placed policy lowered scope) := by
  have hfilter : ((c.placed policy lowered scope).filter.map Filter.warnings).getD [] = [] := by
    cases hf : (c.placed policy lowered scope).filter with
    | none => rfl
    | some f =>
        exact Filter.warnings_eq_nil_of_isNormal (isNormal_placed c policy lowered scope f hf)
  have hbodies : (c.placed policy lowered scope).aggregations = lowered.aggregations ∧
      (c.placed policy lowered scope).postAggregations = lowered.postAggregations := by
    rw [placed_eq]
    exact ⟨rfl, rfl⟩
  have hplaced : warningsOf (c.placed policy lowered scope) =
      validate none (lowered.aggregations.getD []) (lowered.postAggregations.getD []) := by
    rw [warningsOf, validate_eq_append, hfilter, hbodies.1, hbodies.2, List.nil_append]
  rw [hplaced, warningsOf, validate_eq_append]

/-- A query that fails to be checked fails to be precompiled in the same way for everyone. What is
reported when it is precompiled is what the check finds, in the same order and without what it finds
about the filter, which has no empty junction by then. -/
theorem check_agrees_with_precompile (c : Compiler) (q : Query) :
    (∀ e, c.check q = .error e → ∀ organization superOrg,
      c.precompile q organization superOrg = .error (.compile e)) ∧
    (∀ organization superOrg p records,
      c.precompile q organization superOrg = .ok (p, records) →
      ∃ lowered warnings, c.lower q = .ok lowered ∧
        c.check q = .ok ((lowered.filter.map Filter.warnings).getD [] ++ warnings) ∧
        (∀ f ∈ p.query.filter, f.warnings = []) ∧
        records = warnings.map (warningRecord p.hash) ++
          [precompiledRecord p (Scope.policyOf q)]) := by
  constructor
  · intro e h organization superOrg
    rw [check] at h
    cases hlower : c.lower q with
    | error cause =>
        rw [hlower, map_error, Except.error.injEq] at h
        rw [← h]
        exact precompile_of_lower_error hlower
    | ok lowered =>
        rw [hlower] at h
        cases h
  · intro organization superOrg p records h
    obtain ⟨lowered, _, hlower, hscope, -⟩ := precompile_ok h
    obtain ⟨scope, -, hplaced⟩ := scope_eq_ok.1 hscope
    refine ⟨lowered, warningsOf p.query, hlower, ?_, ?_, precompile_records h⟩
    · rw [check, hlower, map_ok, warningsOf_placed c (Scope.policyOf q) lowered scope, hplaced]
    · intro f hf
      rw [← hplaced] at hf
      exact Filter.warnings_eq_nil_of_isNormal (isNormal_placed c _ lowered scope f hf)

def doubtfulRate : Query where
  queryType := .timeseries
  granularity := .all
  filter := some (.not (.junctionOf .any []))
  intervals := some [⟨⟨0⟩, ⟨0⟩⟩]
  aggregations := some [.filtered (.junctionOf .all []) (.count "n") none]
  postAggregations := some [.fieldAccess (some "rate") "total"]

theorem check_agrees_with_precompile_doubtfulRate :
    ∃ p records,
      (⟨.standard, ⟨0⟩⟩ : Compiler).precompile doubtfulRate [Uuid.zero] false = .ok (p, records) ∧
      (⟨.standard, ⟨0⟩⟩ : Compiler).check doubtfulRate =
        .ok [.emptyJunction .any, .emptyJunction .all, .unresolved "total"] ∧
      records = [warningRecord p.hash (.emptyJunction .all),
        warningRecord p.hash (.unresolved "total"), precompiledRecord p .thisOrganization] := by
  obtain ⟨text, htext⟩ : ∃ text, (placed ⟨.standard, ⟨0⟩⟩ .thisOrganization doubtfulRate
      (Scope.rowsOf [Uuid.zero] none)).canonical = .ok text := exists_of_isOk (by decide +kernel)
  have hscope : Compiler.scope ⟨.standard, ⟨0⟩⟩ doubtfulRate doubtfulRate [Uuid.zero] false =
      .ok (placed ⟨.standard, ⟨0⟩⟩ .thisOrganization doubtfulRate
        (Scope.rowsOf [Uuid.zero] none)) := rfl
  obtain ⟨records, hp⟩ := precompile_of_ok rfl hscope htext
  have hcheck : (⟨.standard, ⟨0⟩⟩ : Compiler).check doubtfulRate =
      .ok [.emptyJunction .any, .emptyJunction .all, .unresolved "total"] := rfl
  obtain ⟨lowered, warnings, hlower, hagree, -, hrecords⟩ :=
    (check_agrees_with_precompile _ doubtfulRate).2 _ _ _ records hp
  have hlowered : doubtfulRate = lowered := Except.ok.inj hlower
  subst hlowered
  obtain rfl : [.emptyJunction .all, .unresolved "total"] = warnings :=
    (List.cons.inj (Except.ok.inj (hcheck.symm.trans hagree))).2
  exact ⟨_, records, hp, hcheck, hrecords⟩

end TenantQuery.Compiler
