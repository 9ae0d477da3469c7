import TenantQuery.Proofs.Compiler.Progress
import TenantQuery.Proofs.Filter.Normal

namespace TenantQuery

open Outcome

namespace Compiler

open Expansion TenantQuery.Filter

variable {c : Compiler} {q : Query}

structure Done (q : Query) : Prop where
  extensions : q.clearExtensions = q
  intervals : checkIntervals q = .ok ()
  notVirtual : q.queryType.isVirtual = false
  lowered : ∀ as ∈ q.aggregations, ∀ a ∈ as, a.isLowered = true
  ranking : q.queryType = .topN → checkTopN q = .ok ()
  normal : ∀ f ∈ q.filter, f.isNormal = true

theorem allOf_of_isNormal {filter : Option Filter} (h : ∀ f ∈ filter, f.isNormal = true) :
    (allOf [filter, none]).map Filter.normalize = filter := by
  cases filter with
  | none => rfl
  | some f =>
      have hjoin : allOf [some f, none] = rejoin .all (flatten .all f) := by
        simp [allOf, join]
      rw [hjoin, rejoin_flatten_of_isNormal .all (h f rfl), Option.map_some,
        normalize_of_isNormal (h f rfl)]

theorem Done.precompile (h : Done q) {text : String} (htext : q.canonical = .ok text)
    (c : Compiler) (organization : List Uuid) :
    ∃ records, c.precompile { q with baseFilters := some .noFilter } organization true =
      .ok (⟨q.queryType, q, Digest.tagged Json.precompiledDomain text⟩, records) := by
  have hlowering : c.lowering { q with baseFilters := some .noFilter } =
      { q with baseFilters := some .noFilter } := by
    rw [lowering, lowerConvenience_of_isLowered c.options q.postAggregations h.lowered]
  have hlower : c.lower { q with baseFilters := some .noFilter } =
      .ok { q with baseFilters := some .noFilter } :=
    lower_eq_ok.2 ⟨h.intervals, _, expand_of_not_virtual c h.notVirtual, h.ranking, hlowering.symm⟩
  have hplaced : c.placed .noFilter { q with baseFilters := some .noFilter } none = q := by
    conv_rhs => rw [← h.extensions]
    rw [placed_eq]
    simp only [if_true, allOf_of_isNormal h.normal]
    rfl
  have hscope : c.scope { q with baseFilters := some .noFilter }
      { q with baseFilters := some .noFilter } organization true = .ok q :=
    scope_eq_ok.2 ⟨none, rfl, hplaced⟩
  exact precompile_of_ok hlower hscope htext

theorem done_of_precompile {organization : List Uuid} {superOrg : Bool} {p : Precompiled}
    {records : List LogRecord} (h : c.precompile q organization superOrg = .ok (p, records)) :
    Done p.query := by
  obtain ⟨lowered, -, hlower, hscope, -⟩ := precompile_ok h
  obtain ⟨scope, -, hplaced⟩ := scope_eq_ok.1 hscope
  obtain ⟨hcheck, expanded, hexpand, htop, rfl⟩ := lower_eq_ok.1 hlower
  obtain ⟨hframe, htype, -⟩ := expand_ok hexpand
  rw [← hplaced, placed_eq]
  refine ⟨rfl, ?_, htype, isLowered_lowerConvenience c.options _ _, htop, fun f hf => ?_⟩
  · rw [checkIntervals_eq_ok] at hcheck ⊢
    rwa [← hframe.intervals, ← hframe.relativeIntervals] at hcheck
  · obtain ⟨g, -, rfl⟩ := Option.map_eq_some_iff.1 hf
    exact isNormal_normalize g

/-- A precompiled query that is given to the first phase again, for an organization that may go
unscoped, comes out with the same document and the same hash, whatever the time and the settings. -/
theorem precompile_again (c : Compiler) (q : Query) (organization : List Uuid) (superOrg : Bool)
    (p : Precompiled) (records : List LogRecord)
    (h : c.precompile q organization superOrg = .ok (p, records)) (c' : Compiler)
    (organization' : List Uuid) :
    ∃ again records', again.query = p.query ∧ again.hash = p.hash ∧
      c'.precompile { p.query with baseFilters := some .noFilter } organization' true =
        .ok (again, records') := by
  obtain ⟨-, text, -, -, htext, hhash, -⟩ := precompile_ok h
  obtain ⟨records', hagain⟩ := (done_of_precompile h).precompile htext c' organization'
  rw [← hhash] at hagain
  exact ⟨⟨p.query.queryType, p.query, p.hash⟩, records', rfl, rfl, hagain⟩

def signups : Query where
  queryType := .funnel
  granularity := .day
  intervals := some [⟨⟨0⟩, ⟨0⟩⟩]
  filter := some (.junctionOf .all [.selector "os" "ios", .selector "country" "RE"])
  steps := some [.selector "type" "launch", .junctionOf .any [], .not (.constant true)]
  stepNames := some ["Launch"]

theorem precompile_again_signups :
    ∃ p records again records',
      (⟨.standard, ⟨0⟩⟩ : Compiler).precompile signups [Uuid.zero] false = .ok (p, records) ∧
      again.query = p.query ∧ again.hash = p.hash ∧
      (⟨.standard, ⟨1⟩⟩ : Compiler).precompile { p.query with baseFilters := some .noFilter } []
        true = .ok (again, records') := by
  obtain ⟨expanded, hexpand⟩ : ∃ expanded, Compiler.expand ⟨.standard, ⟨0⟩⟩ signups = .ok expanded :=
    ⟨_, rfl⟩
  have hlower : Compiler.lower ⟨.standard, ⟨0⟩⟩ signups =
      .ok (lowering ⟨.standard, ⟨0⟩⟩ expanded) := by
    cases hexpand
    rfl
  have hscope : Compiler.scope ⟨.standard, ⟨0⟩⟩ signups (lowering ⟨.standard, ⟨0⟩⟩ expanded)
      [Uuid.zero] false = .ok (placed ⟨.standard, ⟨0⟩⟩ .thisOrganization
        (lowering ⟨.standard, ⟨0⟩⟩ expanded) (Scope.rowsOf [Uuid.zero] none)) := rfl
  obtain ⟨text, htext⟩ : ∃ text, (placed ⟨.standard, ⟨0⟩⟩ .thisOrganization
      (lowering ⟨.standard, ⟨0⟩⟩ expanded) (Scope.rowsOf [Uuid.zero] none)).canonical = .ok text := by
    cases hexpand
    exact exists_of_isOk (by decide +kernel)
  obtain ⟨records, hp⟩ := precompile_of_ok hlower hscope htext
  obtain ⟨again, records', hagain⟩ :=
    precompile_again _ signups [Uuid.zero] false _ records hp ⟨.standard, ⟨1⟩⟩ []
  exact ⟨_, records, again, records', hp, hagain⟩

end Compiler

end TenantQuery
