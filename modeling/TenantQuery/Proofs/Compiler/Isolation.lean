import TenantQuery.Proofs.Compiler.Phases
import TenantQuery.Proofs.Filter.Meaning
import TenantQuery.Proofs.Filter.Normal
import TenantQuery.Proofs.Uuid

namespace TenantQuery

namespace Filter

theorem normalizeAll_append (op : Junction) (fs gs : List Filter) :
    normalizeAll op (fs ++ gs) = normalizeAll op fs ++ normalizeAll op gs := by
  simp only [normalizeAll_eq_flatMap, List.flatMap_append]

end Filter

namespace Scope

open TenantQuery.Filter

/-- The apps whose rows the policy of a query lets it see. -/
def allowedApps (config : Config) (q : Query) (organization : List Uuid) : List Uuid :=
  match policyOf q with
  | .thisOrganization => organization
  | .thisApp => q.appID.toList
  | .exampleData => [config.exampleDataAppID]
  | .noFilter => []

/-- The value that rows of a test mode have under its dimension. -/
def testModeText (testMode : Option Bool) : String :=
  if testMode.getD false then "true" else "false"

theorem flatMap_appSelector (ids : List Uuid) :
    (ids.map fun id => some (appSelector id)).flatMap (operandsOf .any) = ids.map appSelector := by
  induction ids with
  | nil => rfl
  | cons id ids ih =>
      rw [List.map_cons, List.flatMap_cons, ih]
      rfl

theorem appFilter_eq (ids : List Uuid) : appFilter ids = rejoin .any (ids.map appSelector) := by
  rw [appFilter, anyOf, join_eq, flatMap_appSelector]

theorem normalizeAll_appSelector (op : Junction) (ids : List Uuid) :
    normalizeAll op (ids.map appSelector) = ids.map appSelector := by
  induction ids with
  | nil => rfl
  | cons id ids ih =>
      rw [List.map_cons, normalizeAll, ih]
      rfl

theorem appFilter_ok {ids : List Uuid} (hids : ids ≠ []) :
    ∃ app, appFilter ids = some app ∧ flatten .all app = [app] ∧ app.normalize = app ∧
      contribution .all app = [app] := by
  rw [appFilter_eq]
  match ids with
  | [] => exact absurd rfl hids
  | [id] => exact ⟨appSelector id, rfl, rfl, rfl, rfl⟩
  | id₁ :: id₂ :: ids =>
      refine ⟨junctionOf .any ((id₁ :: id₂ :: ids).map appSelector), rfl, rfl, ?_, rfl⟩
      rw [junctionOf, Filter.normalize, normalizeAll_appSelector]
      rfl

theorem matches_appFilter {ids : List Uuid} {app : Filter} (h : appFilter ids = some app)
    (e : Event) :
    app.Matches e ↔ ∃ id ∈ ids, e.value appDimension = some id.upperText := by
  rw [appFilter_eq] at h
  rw [matches_rejoin h, matchesJoined_any]
  constructor
  · rintro ⟨f, hf, hmatch⟩
    obtain ⟨id, hid, rfl⟩ := List.mem_map.1 hf
    exact ⟨id, hid, (matches_selector e appDimension id.upperText).1 hmatch⟩
  · rintro ⟨id, hid, hvalue⟩
    exact ⟨appSelector id, List.mem_map_of_mem hid,
      (matches_selector e appDimension id.upperText).2 hvalue⟩

theorem filter_eq_rowsOf {config : Config} {q : Query} {organization : List Uuid} {superOrg : Bool}
    {scope : Option Filter} (hpolicy : policyOf q ≠ .noFilter)
    (h : Scope.filter config (policyOf q) q organization superOrg = .ok scope) :
    scope = rowsOf (allowedApps config q organization) q.testMode ∧
      allowedApps config q organization ≠ [] := by
  cases hp : policyOf q with
  | thisOrganization =>
      simp only [hp, Scope.filter] at h
      simp only [allowedApps, hp]
      cases organization with
      | nil => simp at h
      | cons id ids =>
          refine ⟨?_, List.cons_ne_nil id ids⟩
          simpa using h.symm
  | thisApp =>
      simp only [hp, Scope.filter] at h
      simp only [allowedApps, hp]
      cases happ : q.appID with
      | none => simp [happ] at h
      | some id =>
          refine ⟨?_, by simp⟩
          simpa [happ] using h.symm
  | exampleData =>
      simp only [hp, Scope.filter] at h
      simp only [allowedApps, hp]
      exact ⟨by simpa using h.symm, by simp⟩
  | noFilter => exact absurd hp hpolicy

theorem normalize_allOf_rowsOf {ids : List Uuid} (hids : ids ≠ []) (testMode : Option Bool)
    (own : Option Filter) :
    ∃ app before, appFilter ids = some app ∧
      (allOf [own, rowsOf ids testMode]).map Filter.normalize =
        some (junctionOf .all (before ++ [app, testModeFilter testMode])) := by
  obtain ⟨app, happ, hflat, hnormal, hcontribution⟩ := appFilter_ok hids
  have hrows : rowsOf ids testMode = some (junctionOf .all [app, testModeFilter testMode]) := by
    rw [rowsOf, happ, allOf, join_eq]
    simp only [List.flatMap_cons, List.flatMap_nil, operandsOf, hflat]
    rfl
  have hoperands : operandsOf .all (rowsOf ids testMode) = [app, testModeFilter testMode] := by
    rw [hrows]
    simp only [operandsOf, junctionOf, flatten, if_true, flattenAll, hflat]
    rfl
  refine ⟨app, normalizeAll .all (operandsOf .all own), happ, ?_⟩
  rw [allOf, join_eq]
  simp only [List.flatMap_cons, List.flatMap_nil, List.append_nil, hoperands]
  rw [rejoin_of_two_le (by simp), Option.map_some, junctionOf, Filter.normalize, normalizeAll_append]
  have hpair : normalizeAll .all [app, testModeFilter testMode] = [app, testModeFilter testMode] := by
    simp only [normalizeAll, hnormal, hcontribution]
    rfl
  rw [hpair, collapse_of_two_le (by simp)]

theorem matches_testModeFilter (testMode : Option Bool) (e : Event) :
    (testModeFilter testMode).Matches e ↔
      e.value testModeDimension = some (testModeText testMode) :=
  matches_selector e testModeDimension (testModeText testMode)

theorem matchesOptional_rowsOf {ids : List Uuid} (hids : ids ≠ []) (testMode : Option Bool)
    (e : Event) :
    MatchesOptional e (rowsOf ids testMode) ↔
      (∃ id ∈ ids, e.value appDimension = some id.upperText) ∧
        e.value testModeDimension = some (testModeText testMode) := by
  obtain ⟨app, happ, -⟩ := appFilter_ok hids
  rw [rowsOf, matchesOptional_allOf, happ]
  simp only [List.mem_cons, List.not_mem_nil, or_false, forall_eq_or_imp, forall_eq,
    MatchesOptional]
  exact and_congr (matches_appFilter happ e) (matches_testModeFilter testMode e)

end Scope

namespace Compiler

open TenantQuery.Filter Scope

/-- A query that is scoped to a tenant ends in a conjunction with the apps and the test mode of its
policy, and matches those events of the expanded query that belong to an allowed app and have the
test mode. No event of another app is ever matched, and only a super organization goes unscoped. -/
theorem precompile_isolates (c : Compiler) (q : Query) (organization : List Uuid) (superOrg : Bool)
    (p : Precompiled) (records : List LogRecord)
    (h : c.precompile q organization superOrg = .ok (p, records)) :
    (policyOf q ≠ .noFilter →
      ∃ expanded app before out, c.expand q = .ok expanded ∧
        appFilter (allowedApps c.config q organization) = some app ∧
        p.query.filter = some out ∧
        out = junctionOf .all (before ++ [app, testModeFilter q.testMode]) ∧
        (∀ e : Event, out.Matches e ↔
          MatchesOptional e expanded.filter ∧
          (∃ id ∈ allowedApps c.config q organization,
            e.value appDimension = some id.upperText) ∧
          e.value testModeDimension = some (testModeText q.testMode)) ∧
        ∀ (e : Event) (id : Uuid), id ∉ allowedApps c.config q organization →
          e.value appDimension = some id.upperText → ¬ out.Matches e) ∧
    (policyOf q = .noFilter → superOrg = true) := by
  obtain ⟨lowered, _, hlower, hscope, -⟩ := precompile_ok h
  obtain ⟨scope, hfilter, hout⟩ := scope_eq_ok.1 hscope
  obtain ⟨-, expanded, hexpand, rfl⟩ := lower_ok hlower
  refine ⟨fun hpolicy => ?_, fun hpolicy => ?_⟩
  · obtain ⟨rfl, hallowed⟩ := filter_eq_rowsOf hpolicy hfilter
    obtain ⟨app, before, happ, hnormal⟩ :=
      normalize_allOf_rowsOf hallowed q.testMode expanded.filter
    have hplaced : p.query.filter = some (junctionOf .all (before ++ [app, testModeFilter q.testMode])) := by
      rw [← hout, placed, if_neg hpolicy, ← hnormal]
      rfl
    have hmeaning (e : Event) :
        (junctionOf .all (before ++ [app, testModeFilter q.testMode])).Matches e ↔
          MatchesOptional e expanded.filter ∧
          (∃ id ∈ allowedApps c.config q organization,
            e.value appDimension = some id.upperText) ∧
          e.value testModeDimension = some (testModeText q.testMode) := by
      have hall := matchesOptional_normalize e
        (allOf [expanded.filter, rowsOf (allowedApps c.config q organization) q.testMode])
      rw [hnormal, matchesOptional_allOf] at hall
      simp only [List.mem_cons, List.not_mem_nil, or_false, forall_eq_or_imp, forall_eq] at hall
      rw [matchesOptional_rowsOf hallowed] at hall
      exact hall
    refine ⟨expanded, app, before, _, hexpand, happ, hplaced, rfl, hmeaning, ?_⟩
    intro e id hid hvalue hmatch
    obtain ⟨-, ⟨other, hother, hvalue'⟩, -⟩ := (hmeaning e).1 hmatch
    rw [hvalue, Option.some.injEq] at hvalue'
    exact hid (Uuid.upperText_injective hvalue' ▸ hother)
  · rw [hpolicy, Scope.filter] at hfilter
    cases superOrg with
    | false => simp at hfilter
    | true => rfl

def greedyQuery : Query where
  queryType := .timeseries
  granularity := .all
  filter := some (.junction .any (some [.constant true, .selector appDimension Config.publicAppID.upperText]))
  intervals := some [⟨⟨0⟩, ⟨0⟩⟩]

theorem precompile_isolates_greedyQuery :
    ∃ p records out,
      (⟨.standard, ⟨0⟩⟩ : Compiler).precompile greedyQuery [Uuid.zero] false = .ok (p, records) ∧
      policyOf greedyQuery ≠ .noFilter ∧ p.query.filter = some out ∧
      ¬ out.Matches ⟨fun _ => some Config.publicAppID.upperText, fun _ => true⟩ := by
  obtain ⟨text, htext⟩ : ∃ text, (placed ⟨.standard, ⟨0⟩⟩ .thisOrganization greedyQuery
      (rowsOf [Uuid.zero] none)).canonical = .ok text :=
    Outcome.exists_of_isOk (by decide +kernel)
  have hscope : Compiler.scope ⟨.standard, ⟨0⟩⟩ greedyQuery greedyQuery [Uuid.zero] false =
      .ok (placed ⟨.standard, ⟨0⟩⟩ .thisOrganization greedyQuery (rowsOf [Uuid.zero] none)) := rfl
  obtain ⟨records, hp⟩ := precompile_of_ok rfl hscope htext
  have hpolicy : policyOf greedyQuery ≠ .noFilter := by decide
  obtain ⟨_, _, _, out, -, -, hout, -, -, hforeign⟩ :=
    (precompile_isolates _ greedyQuery [Uuid.zero] false _ records hp).1 hpolicy
  exact ⟨_, records, out, hp, hpolicy, hout, hforeign _ Config.publicAppID (by decide) rfl⟩

end Compiler

end TenantQuery
