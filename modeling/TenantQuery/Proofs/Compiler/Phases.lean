import TenantQuery.Compiler.Basic
import TenantQuery.Proofs.Outcome

namespace TenantQuery

open Outcome

theorem Json.hash_eq_ok {domain : String} {j : Json} {hash : String} :
    j.hash domain = .ok hash ↔ ∃ text, j.canonical = .ok text ∧ Digest.tagged domain text = hash := by
  rw [Json.hash, mapError_eq_ok, map_eq_ok]

namespace Compiler

variable {c : Compiler} {q lowered out : Query} {organization : List Uuid} {superOrg : Bool}

def placed (c : Compiler) (policy : Policy) (lowered : Query) (scope : Option Filter) : Query :=
  let filtered :=
    { lowered with filter := (Filter.allOf [lowered.filter, scope]).map Filter.normalize }
  if policy = .noFilter then filtered.clearExtensions
  else
    { filtered with
      dataSource := c.config.dataSource
      context := some (Context.merge filtered.context (contextDefaults c.config)) }.clearExtensions

theorem placed_eq (c : Compiler) (policy : Policy) (lowered : Query) (scope : Option Filter) :
    c.placed policy lowered scope =
      { lowered.clearExtensions with
        filter := (Filter.allOf [lowered.filter, scope]).map Filter.normalize
        dataSource := if policy = .noFilter then lowered.dataSource else c.config.dataSource
        context :=
          if policy = .noFilter then lowered.context
          else some (Context.merge lowered.context (contextDefaults c.config)) } := by
  unfold placed
  by_cases h : policy = .noFilter <;> simp only [h, if_true, if_false] <;> rfl

theorem scope_eq :
    c.scope q lowered organization superOrg =
      (Scope.filter c.config (Scope.policyOf q) q organization superOrg).map
        (c.placed (Scope.policyOf q) lowered) := by
  rw [Compiler.scope]
  cases Scope.filter c.config (Scope.policyOf q) q organization superOrg with
  | error e => rfl
  | ok scope =>
      rw [ok_bind, pure_eq_ok, map_ok, placed]
      by_cases h : Scope.policyOf q = .noFilter <;> simp only [h, if_true, if_false]

theorem scope_eq_ok :
    c.scope q lowered organization superOrg = .ok out ↔
      ∃ scope, Scope.filter c.config (Scope.policyOf q) q organization superOrg = .ok scope ∧
        c.placed (Scope.policyOf q) lowered scope = out := by
  rw [scope_eq, map_eq_ok]

theorem precompile_ok {p : Precompiled} {records : List LogRecord}
    (h : c.precompile q organization superOrg = .ok (p, records)) :
    ∃ lowered text, c.lower q = .ok lowered ∧
      c.scope q lowered organization superOrg = .ok p.query ∧ p.query.canonical = .ok text ∧
      p.hash = Digest.tagged Json.precompiledDomain text ∧ p.source = q.queryType := by
  simp only [precompile, bind_eq_ok, mapError_eq_ok, Json.hash_eq_ok] at h
  obtain ⟨lowered, hlower, out, hscope, hash, ⟨text, htext, hhash⟩, h⟩ := h
  rw [pure_eq_ok, Except.ok.injEq, Prod.mk.injEq] at h
  obtain ⟨rfl, -⟩ := h
  exact ⟨lowered, text, hlower, hscope, htext, hhash.symm, rfl⟩

theorem precompile_of_ok {text : String} (hlower : c.lower q = .ok lowered)
    (hscope : c.scope q lowered organization superOrg = .ok out) (htext : out.canonical = .ok text) :
    ∃ records, c.precompile q organization superOrg =
      .ok (⟨q.queryType, out, Digest.tagged Json.precompiledDomain text⟩, records) := by
  have hhash : out.encode.hash Json.precompiledDomain =
      .ok (Digest.tagged Json.precompiledDomain text) := Json.hash_eq_ok.2 ⟨text, htext, rfl⟩
  simp only [precompile, hlower, hscope, hhash, mapError_ok, ok_bind, pure_eq_ok]
  exact ⟨_, rfl⟩

/-- A query that has been lowered and scoped fails for want of a canonical form only. -/
theorem precompile_error {e : Error} (hlower : c.lower q = .ok lowered)
    (hscope : c.scope q lowered organization superOrg = .ok out)
    (h : c.precompile q organization superOrg = .error e) :
    ∃ cause, out.canonical = .error cause ∧
      e = .within ("hash " ++ Json.precompiledDomain) cause := by
  cases htext : out.canonical with
  | error cause =>
      have hhash : out.encode.hash Json.precompiledDomain =
          .error (.within ("hash " ++ Json.precompiledDomain) cause) := by
        rw [Json.hash, show out.encode.canonical = .error cause from htext, map_error, mapError_error]
      simp only [precompile, hlower, hscope, hhash, mapError_ok, ok_bind, error_bind,
        Except.error.injEq] at h
      exact ⟨cause, rfl, h.symm⟩
  | ok text =>
      obtain ⟨records, hok⟩ := precompile_of_ok hlower hscope htext
      rw [hok] at h
      cases h

/-- A query in which aggregators of the tenant language have given way to those of the engine. -/
def lowering (c : Compiler) (expanded : Query) : Query :=
  { expanded with
    aggregations := (Expansion.lowerConvenience c.options expanded.aggregations
      expanded.postAggregations).1
    postAggregations := (Expansion.lowerConvenience c.options expanded.aggregations
      expanded.postAggregations).2 }

theorem lower_eq_ok :
    c.lower q = .ok out ↔ checkIntervals q = .ok () ∧ ∃ expanded, c.expand q = .ok expanded ∧
      (expanded.queryType = .topN → checkTopN expanded = .ok ()) ∧ out = c.lowering expanded := by
  rw [lower, bind_eq_ok]
  simp only [bind_eq_ok]
  constructor
  · rintro ⟨_, hcheck, expanded, hexpand, h⟩
    refine ⟨hcheck, expanded, hexpand, ?_⟩
    split at h
    · rw [bind_eq_ok] at h
      obtain ⟨_, htop, h⟩ := h
      exact ⟨fun _ => htop, (Except.ok.inj h).symm⟩
    · rename_i htype
      exact ⟨fun h' => absurd h' htype, (Except.ok.inj h).symm⟩
  · rintro ⟨hcheck, expanded, hexpand, htop, rfl⟩
    refine ⟨(), hcheck, expanded, hexpand, ?_⟩
    split
    · rename_i htype
      exact bind_eq_ok.2 ⟨(), htop htype, rfl⟩
    · rfl

theorem lower_ok (h : c.lower q = .ok out) :
    checkIntervals q = .ok () ∧ ∃ expanded, c.expand q = .ok expanded ∧ out = c.lowering expanded := by
  obtain ⟨hcheck, expanded, hexpand, -, hout⟩ := lower_eq_ok.1 h
  exact ⟨hcheck, expanded, hexpand, hout⟩

end Compiler

end TenantQuery
