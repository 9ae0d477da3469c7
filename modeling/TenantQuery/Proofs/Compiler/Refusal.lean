import TenantQuery.Proofs.Compiler.Fixpoint
import TenantQuery.Proofs.Query.Document
import TenantQuery.Proofs.Query.Nodes

namespace TenantQuery

open Json Outcome

def NoRefusal {α : Type} (x : Except Error α) : Prop :=
  ∀ e, x = .error e → e.compileCause? = none

namespace NoRefusal

variable {α β : Type} {x : Except Error α}

theorem ok (a : α) : NoRefusal (.ok a : Except Error α) :=
  fun _ h => nomatch h

theorem error {e : Error} (h : e.compileCause? = none) : NoRefusal (.error e : Except Error α) := by
  rintro _ ⟨⟩
  exact h

theorem map (h : NoRefusal x) (f : α → β) : NoRefusal (x.map f) := by
  cases x with
  | error e => exact .error (h e rfl)
  | ok a => exact .ok _

theorem within (h : NoRefusal x) (context : String) : NoRefusal (x.mapError (.within context)) := by
  cases x with
  | error e => exact .error (h e rfl)
  | ok a => exact .ok a

theorem bind {f : α → Except Error β} (h : NoRefusal x) (hf : ∀ a, x = .ok a → NoRefusal (f a)) :
    NoRefusal (x >>= f) := by
  cases x with
  | error e => exact .error (h e rfl)
  | ok a => exact hf a rfl

end NoRefusal

namespace Json

theorem noRefusal_canonicalNumber (literal : String) : NoRefusal (canonicalNumber literal) := by
  unfold canonicalNumber
  split
  · split
    · exact .ok _
    · exact .error rfl
  · split
    · exact .ok _
    · exact .ok _

theorem noRefusal_normalItems {items : List Json} (h : ∀ j ∈ items, NoRefusal j.normalForm)
    (index : Nat) : NoRefusal (normalItems index items) := by
  induction items generalizing index with
  | nil => exact .ok _
  | cons j items ih =>
      obtain ⟨hj, hitems⟩ := List.forall_mem_cons.1 h
      exact (hj.within _).bind fun _ _ => (ih hitems _).bind fun _ _ => .ok _

theorem noRefusal_settleMembers {ms : List (String × Except Error Json)}
    (h : ∀ m ∈ ms, NoRefusal m.2) : NoRefusal (settleMembers ms) := by
  induction ms with
  | nil => exact .ok _
  | cons m ms ih =>
      obtain ⟨hm, hms⟩ := List.forall_mem_cons.1 h
      obtain ⟨key, value⟩ := m
      cases value with
      | ok j => exact (ih hms).map _
      | error e => exact .error (hm e rfl)

theorem mem_of_arrange {ms arranged : List (String × Except Error Json)}
    (h : arrange ms = .ok arranged) {m : String × Except Error Json} (hm : m ∈ arranged) :
    ∃ n ∈ ms, m.2 = n.2 := by
  unfold arrange at h
  dsimp only at h
  split at h
  · cases h
  · cases h
    obtain ⟨n, hn, rfl⟩ := List.mem_map.1 ((perm_sortByUnits _).mem_iff.1 hm)
    exact ⟨n, lastWins_subset ms (List.mem_of_mem_filter hn), rfl⟩

theorem noRefusal_arrange (ms : List (String × Except Error Json)) : NoRefusal (arrange ms) := by
  unfold arrange
  dsimp only
  split
  · exact .error rfl
  · exact .ok _

theorem noRefusal_normalForm (j : Json) : NoRefusal j.normalForm := by
  induction j using Json.induction with
  | null => exact .ok _
  | bool b => exact .ok _
  | string s => exact .ok _
  | number literal => exact (noRefusal_canonicalNumber literal).map _
  | array items ih => exact (noRefusal_normalItems ih 0).map _
  | object members ih =>
      refine (noRefusal_arrange _).bind fun arranged harranged => ?_
      refine NoRefusal.bind (noRefusal_settleMembers fun m hm => ?_) fun _ _ => .ok _
      obtain ⟨n, hn, hvalue⟩ := mem_of_arrange harranged hm
      rw [normalMembers_eq_map] at hn
      obtain ⟨k, hk, rfl⟩ := List.mem_map.1 hn
      rw [hvalue]
      exact ih k hk

theorem noRefusal_canonical (j : Json) : NoRefusal j.canonical := by
  unfold canonical
  split
  · exact .error rfl
  · exact (noRefusal_normalForm j).map _

end Json

namespace Compiler

open Expansion

variable {c : Compiler} {q lowered out : Query} {organization : List Uuid} {superOrg : Bool}

theorem expand_dimensions {expanded : Query} (h : c.expand q = .ok expanded) :
    expanded.dimension = q.dimension ∧ expanded.dimensions = q.dimensions := by
  unfold expand at h
  split at h
  · obtain ⟨_, -, rfl⟩ := funnel_ok h
    exact ⟨rfl, rfl⟩
  · obtain ⟨_, -, -, rfl⟩ := retention_ok h
    exact ⟨rfl, rfl⟩
  · obtain ⟨_, _, _, -, -, -, rfl⟩ := experiment_ok h
    exact ⟨rfl, rfl⟩
  · cases h
    exact ⟨rfl, rfl⟩

theorem scope_dimensions (hlower : c.lower q = .ok lowered)
    (hscope : c.scope q lowered organization superOrg = .ok out) :
    out.dimension = q.dimension ∧ out.dimensions = q.dimensions := by
  obtain ⟨-, expanded, hexpand, rfl⟩ := lower_ok hlower
  obtain ⟨scope, -, rfl⟩ := scope_eq_ok.1 hscope
  obtain ⟨hdimension, hdimensions⟩ := expand_dimensions hexpand
  rw [placed_eq]
  exact ⟨hdimension, hdimensions⟩

theorem scope_canonical_iff (hq : q.Spellable) (hlower : c.lower q = .ok lowered)
    (hscope : c.scope q lowered organization superOrg = .ok out) :
    (∃ text, out.canonical = .ok text) ↔ out.encode.depth ≤ maxDepth ∧ q.Distinct := by
  have hdistinct : out.Distinct ↔ q.Distinct := by
    obtain ⟨hdimension, hdimensions⟩ := scope_dimensions hlower hscope
    constructor
    · rintro ⟨hone, hall⟩
      exact ⟨hdimension ▸ hone, hdimensions ▸ hall⟩
    · rintro ⟨hone, hall⟩
      exact ⟨hdimension ▸ hone, hdimensions ▸ hall⟩
  rw [(scope_spellable hq hlower hscope).canonical_iff, hdistinct]

/-- A query that cannot be lowered or scoped is refused. -/
theorem precompile_refused {e : Error} (h : c.precompile q organization superOrg = .error e) :
    (∃ cause, e = .compile cause) ∨
      ∃ lowered out, c.lower q = .ok lowered ∧
        c.scope q lowered organization superOrg = .ok out := by
  cases hlower : c.lower q with
  | error cause =>
      simp only [precompile, hlower, mapError_error, error_bind, Except.error.injEq] at h
      exact .inl ⟨cause, h.symm⟩
  | ok lowered =>
      cases hscope : c.scope q lowered organization superOrg with
      | error cause =>
          simp only [precompile, hlower, hscope, mapError_ok, ok_bind, mapError_error, error_bind,
            Except.error.injEq] at h
          exact .inl ⟨cause, h.symm⟩
      | ok out => exact .inr ⟨lowered, out, rfl, hscope⟩

/-- Precompiling fails without a refusal exactly if the outcome nests too deeply or keys of a table
fall together. -/
theorem precompile_noRefusal_iff (hq : q.Spellable) :
    (∃ e, c.precompile q organization superOrg = .error e ∧ e.compileCause? = none) ↔
      ∃ lowered out, c.lower q = .ok lowered ∧
        c.scope q lowered organization superOrg = .ok out ∧
        (maxDepth < out.encode.depth ∨ ¬ q.Distinct) := by
  constructor
  · rintro ⟨e, he, hcause⟩
    rcases precompile_refused he with ⟨cause, rfl⟩ | ⟨lowered, out, hlower, hscope⟩
    · cases hcause
    · refine ⟨lowered, out, hlower, hscope, ?_⟩
      obtain ⟨cause, hfails, -⟩ := precompile_error hlower hscope he
      by_contra hboth
      rw [not_or, not_lt, not_not] at hboth
      obtain ⟨text, htext⟩ := (scope_canonical_iff hq hlower hscope).2 hboth
      rw [htext] at hfails
      cases hfails
  · rintro ⟨lowered, out, hlower, hscope, hfault⟩
    cases hp : c.precompile q organization superOrg with
    | ok result =>
        obtain ⟨p, records⟩ := result
        obtain ⟨lowered', text, hlower', hscope', htext, -⟩ := precompile_ok hp
        rw [hlower, Except.ok.injEq] at hlower'
        subst hlower'
        rw [hscope, Except.ok.injEq] at hscope'
        subst hscope'
        have hboth := (scope_canonical_iff hq hlower hscope).1 ⟨text, htext⟩
        rcases hfault with hdeep | hclash
        · exact absurd hboth.1 (not_le.2 hdeep)
        · exact absurd hboth.2 hclash
    | error e =>
        obtain ⟨cause, hfails, rfl⟩ := precompile_error hlower hscope hp
        exact ⟨_, rfl, noRefusal_canonical out.encode cause hfails⟩

theorem code_mem (cause : CompileError) :
    cause.code.text ∈ ["KEY_MISSING", "NOT_ALLOWED", "NOT_IMPLEMENTED"] := by
  cases cause.code <;> decide

/-- Of a query that is read from a text, precompiling fails with a refusal that has one of the three
codes, or the failure is none of the compiler's refusals. It is none of them if and only if the
query was lowered and scoped, and what came out nests too deeply or has a table whose keys fall
together when they are composed. The second phase fails with a refusal always. -/
theorem compile_refusals {text : String} {q : Query} (hparse : Query.parse text = .ok q)
    (c : Compiler) (organization : List Uuid) (superOrg : Bool) :
    (∀ e, c.precompile q organization superOrg = .error e →
      (∃ cause, e = .compile cause ∧
        cause.code.text ∈ ["KEY_MISSING", "NOT_ALLOWED", "NOT_IMPLEMENTED"]) ∨
      e.compileCause? = none) ∧
    ((∃ e, c.precompile q organization superOrg = .error e ∧ e.compileCause? = none) ↔
      ∃ lowered out, c.lower q = .ok lowered ∧
        c.scope q lowered organization superOrg = .ok out ∧
        (maxDepth < out.encode.depth ∨ ¬ q.Distinct)) ∧
    ∀ p cause, c.runnable p = .error cause →
      cause.code.text ∈ ["KEY_MISSING", "NOT_ALLOWED", "NOT_IMPLEMENTED"] := by
  refine ⟨fun e he => ?_, precompile_noRefusal_iff (Query.spellable_of_parse hparse),
    fun _ cause _ => code_mem cause⟩
  rcases precompile_refused he with ⟨cause, rfl⟩ | ⟨lowered, out, hlower, hscope⟩
  · exact .inl ⟨cause, rfl, code_mem cause⟩
  · obtain ⟨cause, hfails, rfl⟩ := precompile_error hlower hscope he
    exact .inr (noRefusal_canonical out.encode cause hfails)

/-- A query of no time, as a document and as what it is read as. -/
def timelessText : Json :=
  .object [("queryType", .string "timeseries"), ("granularity", .string "all")]

def timeless : Query where
  queryType := .timeseries
  granularity := .all

theorem compile_refusals_timeless :
    Query.parse timelessText.encode = .ok timeless ∧
      ∃ cause, (⟨.standard, ⟨0⟩⟩ : Compiler).precompile timeless [] true = .error (.compile cause) ∧
        cause.code.text ∈ ["KEY_MISSING", "NOT_ALLOWED", "NOT_IMPLEMENTED"] := by
  have hspelled : timelessText.Spelled := by
    simp [timelessText, HasLiterals, Everywhere, EverywhereMembers]
  have hparse : Query.parse timelessText.encode = .ok timeless :=
    Query.parse_eq_ok.2 ⟨_, (Json.parse_encode_eq_ok hspelled).2 ⟨rfl, by decide⟩, rfl⟩
  have hp : (⟨.standard, ⟨0⟩⟩ : Compiler).precompile timeless [] true =
      .error (.compile .noIntervals) := rfl
  refine ⟨hparse, ?_⟩
  rcases (compile_refusals hparse ⟨.standard, ⟨0⟩⟩ [] true).1 _ hp with ⟨cause, he, hcode⟩ | hnone
  · exact ⟨cause, by rw [hp, he], hcode⟩
  · cases hnone

def deepWeek (n : Nat) : Query :=
  { Query.pastWeek with baseFilters := some .exampleData, filter := some (buried n) }

theorem retained_buried (n : Nat) : (buried n).retained = buried n := by
  induction n with
  | zero => rfl
  | succ n ih => rw [buried, Filter.retained, ih]

theorem normalize_buried (n : Nat) : (buried n).normalize = buried n := by
  induction n with
  | zero => rfl
  | succ n ih =>
      rw [buried, Filter.normalize, ih]
      cases n <;> rfl

theorem stored_deepWeek (n : Nat) : (deepWeek n).Stored :=
  { Query.stored_pastWeek with
    filter := by
      rintro f ⟨⟩
      simp [windows_buried] }

theorem parse_deepWeek {n : Nat} (hdepth : (deepWeek n).encode.depth ≤ maxDepth) :
    Query.parse (deepWeek n).encode.encode = .ok (deepWeek n) := by
  refine (stored_deepWeek n).parse_encode_eq_ok.2 ⟨?_, hdepth, ?_⟩
  · simp only [deepWeek, Query.retained, Option.map_some, retained_buried]
    rfl
  · rintro rs ⟨⟩ r hr
    rw [List.mem_singleton.1 hr]
    exact ⟨⟨by decide, by decide⟩, ⟨by decide, by decide⟩⟩

theorem scope_deepWeek (n : Nat) : ∃ out,
    (⟨.standard, ⟨0⟩⟩ : Compiler).scope (deepWeek n) (deepWeek n) [] false = .ok out ∧
      out.filter = some (.junction .all (some [buried n, Scope.appSelector Config.publicAppID,
        Scope.testModeFilter none])) := by
  have hflat : Filter.flatten .all (buried n) = [buried n] := by cases n <;> rfl
  have hpart : Filter.contribution .all (buried n) = [buried n] := by cases n <;> rfl
  refine ⟨_, scope_eq_ok.2 ⟨_, rfl, rfl⟩, ?_⟩
  rw [placed_eq]
  simp only [deepWeek, Filter.allOf, Filter.join, List.flatMap_cons, hflat]
  show some (Filter.collapse .all (Filter.contribution .all (buried n).normalize ++
    [Scope.appSelector Config.publicAppID, Scope.testModeFilter none])) = _
  rw [normalize_buried, hpart]
  rfl

theorem depth_deepWeek {n : Nat} (hn : 1 ≤ n) : (deepWeek n).encode.depth = n + 3 := by
  simp [deepWeek, Query.pastWeek, Query.encode, ifText, ifSome, ifAny, Granularity.encode,
    RelativeInterval.encode, RelativeDate.encode, Component.encode, ofInt, depth, itemsDepth,
    membersDepth, depth_buried, hn]

theorem depth_filter_lt {q : Query} {f : Filter} (h : q.filter = some f) :
    f.encode.depth < q.encode.depth := by
  have hmem : ("filter", f.encode) ∈ q.members := by simp [Query.members, h, ifSome]
  rw [Query.encode_eq_members, depth, Nat.lt_succ_iff]
  exact membersDepth_le_iff.1 (Nat.le_refl _) _ hmem

theorem depth_junction_lt (op : Junction) {fs : List Filter} {f : Filter} (hf : f ∈ fs) :
    f.encode.depth + 1 < (Filter.junction op (some fs)).encode.depth := by
  have harray := depth_lt_of_mem_array (List.mem_map_of_mem hf : f.encode ∈ fs.map Filter.encode)
  have hfields := depth_lt_of_mem_tagged op.typeName
    (List.mem_singleton_self ("fields", listOrNull Filter.encode (some fs)))
  rw [Filter.encode_junction]
  simp only [listOrNull] at hfields ⊢
  omega

theorem precompile_deepWeek_9997 :
    Query.parse (deepWeek 9997).encode.encode = .ok (deepWeek 9997) ∧
      ∃ e, (⟨.standard, ⟨0⟩⟩ : Compiler).precompile (deepWeek 9997) [] false = .error e ∧
        e.compileCause? = none := by
  have hdepth : (deepWeek 9997).encode.depth ≤ maxDepth := by
    rw [depth_deepWeek (by omega)]
    decide
  obtain ⟨out, hscope, hfilter⟩ := scope_deepWeek 9997
  have hdeep : maxDepth < out.encode.depth := by
    have hout := depth_filter_lt hfilter
    have htest := depth_junction_lt .all (List.mem_cons_self :
      buried 9997 ∈ [buried 9997, Scope.appSelector Config.publicAppID, Scope.testModeFilter none])
    rw [depth_buried] at htest
    have hmax : maxDepth = 10000 := rfl
    omega
  refine ⟨parse_deepWeek hdepth, ?_⟩
  exact (precompile_noRefusal_iff (stored_deepWeek 9997).toFits.spellable).2
    ⟨deepWeek 9997, out, rfl, hscope, .inl hdeep⟩

end Compiler

end TenantQuery
