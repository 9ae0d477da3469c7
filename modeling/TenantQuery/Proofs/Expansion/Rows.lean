import TenantQuery.Proofs.Expansion.Experiment
import TenantQuery.Proofs.Filter.Evaluation

namespace TenantQuery.Expansion

open TenantQuery.Filter

section Filters

variable (options : Options) {q : Query}

theorem exists_funnel {steps : List Filter} (hsteps : q.steps = some steps) (hne : steps ≠ []) :
    ∃ out, funnel options q = .ok out ∧
      out.filter = allOf [q.filter, anyOf (steps.map some)] := by
  obtain ⟨first, rest, rfl⟩ := List.exists_cons_of_ne_nil hne
  exact ⟨_, by rw [funnel, hsteps], rfl⟩

theorem exists_experiment {sample1 sample2 success : Filter}
    (hsample1 : q.sample1.bind (·.filter) = some sample1)
    (hsample2 : q.sample2.bind (·.filter) = some sample2)
    (hsuccess : q.successCriterion.bind (·.filter) = some success) :
    ∃ out, experiment options q = .ok out ∧
      out.filter = allOf [q.filter, anyOf ([sample1, sample2, success].map some)] := by
  obtain ⟨out, hout, hexpands⟩ :=
    Experiment.exists_expands options hsample1 hsample2 hsuccess
  exact ⟨out, hout, hexpands.filter⟩

end Filters

/-- A funnel sees the rows that its own filter and one of its steps match, and an experiment those
that its own filter and one of its three filters match. Where all steps, or all three filters, are
hollow, each sees what its own filter matches. -/
theorem expanded_rows (options : Options) (q : Query) :
    (∀ steps, q.steps = some steps → steps ≠ [] →
      ∃ out, funnel options q = .ok out ∧ ∀ answer,
        (evalOptional answer out.filter = true ↔
          evalOptional answer q.filter = true ∧
            ((∃ step ∈ steps, step.eval answer = true) ∨ ∀ step ∈ steps, step.Hollow))) ∧
    ∀ sample1 sample2 success, q.sample1.bind (·.filter) = some sample1 →
      q.sample2.bind (·.filter) = some sample2 →
      q.successCriterion.bind (·.filter) = some success →
      ∃ out, experiment options q = .ok out ∧ ∀ answer,
        (evalOptional answer out.filter = true ↔
          evalOptional answer q.filter = true ∧
            ((sample1.eval answer = true ∨ sample2.eval answer = true ∨
                success.eval answer = true) ∨
              sample1.Hollow ∧ sample2.Hollow ∧ success.Hollow)) := by
  constructor
  · intro steps hsteps hne
    obtain ⟨out, hout, hfilter⟩ := exists_funnel options hsteps hne
    refine ⟨out, hout, fun answer => ?_⟩
    rw [hfilter, evalOptional_allOf_anyOf]
  · intro sample1 sample2 success hsample1 hsample2 hsuccess
    obtain ⟨out, hout, hfilter⟩ := exists_experiment options hsample1 hsample2 hsuccess
    refine ⟨out, hout, fun answer => ?_⟩
    rw [hfilter, evalOptional_allOf_anyOf]
    simp

def hollowStep : Filter :=
  .junctionOf .any [.junctionOf .any [], .junction .any none]

def partlyHollow : Query where
  queryType := .funnel
  granularity := .all
  filter := some (.selector "os" "ios")
  steps := some [hollowStep, .selector "type" "launch"]
  sample1 := some ⟨some (.selector "type" "blue"), "blue"⟩
  sample2 := some ⟨some (.selector "type" "red"), "red"⟩
  successCriterion := some ⟨some hollowStep, "buy"⟩

def answersOf (selectors : List Selector) : Predicate → Bool
  | .selector p => selectors.contains p
  | _ => false

theorem expanded_rows_partlyHollow :
    ∃ funnelled compared, funnel ⟨"", ⟨0⟩⟩ partlyHollow = .ok funnelled ∧
      experiment ⟨"", ⟨0⟩⟩ partlyHollow = .ok compared ∧
      evalOptional (answersOf [⟨"os", "ios"⟩, ⟨"type", "launch"⟩]) funnelled.filter = true ∧
      evalOptional (answersOf [⟨"os", "ios"⟩, ⟨"type", "blue"⟩]) funnelled.filter = false ∧
      evalOptional (answersOf [⟨"os", "ios"⟩, ⟨"type", "blue"⟩]) compared.filter = true ∧
      evalOptional (answersOf [⟨"os", "ios"⟩, ⟨"type", "launch"⟩]) compared.filter = false := by
  obtain ⟨hfunnel, hexperiment⟩ := expanded_rows ⟨"", ⟨0⟩⟩ partlyHollow
  obtain ⟨funnelled, hfunnelled, hsteps⟩ := hfunnel _ rfl (by simp)
  obtain ⟨compared, hcompared, hcohorts⟩ := hexperiment _ _ _ rfl rfl rfl
  have hselector (dimension value : String) : ¬ (selector dimension value).Hollow := fun h => by
    cases h
  simp only [List.exists_mem_cons_iff, List.forall_mem_cons, hselector, false_and, and_false,
    or_false] at hsteps hcohorts
  refine ⟨funnelled, compared, hfunnelled, hcompared, (hsteps _).2 ?_, ?_, (hcohorts _).2 ?_, ?_⟩
  · decide
  · rw [← Bool.not_eq_true, hsteps]
    decide
  · decide
  · rw [← Bool.not_eq_true, hcohorts]
    decide

def funnelOfNothingText : Json := .object [
  ("queryType", .string "funnel"), ("granularity", .string "all"),
  ("filter", .object [("type", .string "selector"), ("dimension", .string "os"),
    ("value", .string "ios")]),
  ("steps", .array [.object [("type", .string "or"), ("fields", .array [])]])]

def funnelOfNothing : Query where
  queryType := .funnel
  granularity := .all
  filter := some (.selector "os" "ios")
  steps := some [.junctionOf .any []]

theorem expanded_rows_funnelOfNothing :
    ∃ out, Query.read funnelOfNothingText = .ok funnelOfNothing ∧
      funnel ⟨"", ⟨0⟩⟩ funnelOfNothing = .ok out ∧
      evalOptional (answersOf [⟨"os", "ios"⟩]) out.filter = true ∧
      ∀ step ∈ funnelOfNothing.steps.getD [], ∀ answer, step.eval answer = false := by
  have hread : Query.read funnelOfNothingText = .ok funnelOfNothing := by rfl
  obtain ⟨out, hout, hfilter⟩ :=
    exists_funnel ⟨"", ⟨0⟩⟩ (q := funnelOfNothing) rfl (List.cons_ne_nil _ _)
  refine ⟨out, hread, hout, ?_, ?_⟩
  · rw [hfilter]
    decide
  · intro step hstep answer
    rw [List.mem_singleton.1 hstep]
    rfl

end TenantQuery.Expansion
