import TenantQuery.Proofs.Compiler.Phases
import TenantQuery.Proofs.Expansion.Fits

namespace TenantQuery

open Json Outcome

namespace Compiler

open Expansion

variable {c : Compiler} {q lowered : Query}

theorem expand_fits (hq : q.Fits)
    (hwindows : ∀ i ∈ q.windows ++ (q.relativeIntervals.getD []).map (·.resolve c.now), i.Moderate)
    {expanded : Query} (h : c.expand q = .ok expanded) :
    expanded.Fits ∧ expanded.intervals = q.intervals ∧
      expanded.relativeIntervals = q.relativeIntervals := by
  have hdated (i : Interval) (hi : i ∈ q.windows) : i.Dated :=
    (hwindows i (List.mem_append_left _ hi)).dated
  unfold expand at h
  split at h
  · refine funnel_fits hq (fun fs hfs f hf i hi => hdated i ?_) h
    exact Query.mem_windows_of_steps hfs hf hi
  · refine retention_fits hq (fun i hi => hwindows i ?_) h
    rcases List.mem_append.1 hi with hi | hi
    · cases hintervals : q.intervals with
      | none =>
          rw [hintervals] at hi
          cases hi
      | some is =>
          rw [hintervals] at hi
          exact List.mem_append_left _ (Query.mem_windows_of_intervals hintervals hi)
    · exact List.mem_append_right _ hi
  · refine experiment_fits hq (fun sample hsample f hf i hi => hdated i ?_) h
    exact Query.mem_windows_of_sample hsample hf hi
  · cases h
    exact ⟨hq, rfl, rfl⟩

theorem expand_spellable (hq : q.Spellable) {expanded : Query} (h : c.expand q = .ok expanded) :
    expanded.Spellable := by
  unfold expand at h
  split at h
  · exact funnel_spellable hq h
  · exact retention_spellable hq h
  · exact experiment_spellable hq h
  · cases h
    exact hq

theorem lower_fits (hq : q.Fits)
    (hwindows : ∀ i ∈ q.windows ++ (q.relativeIntervals.getD []).map (·.resolve c.now), i.Moderate)
    (h : c.lower q = .ok lowered) :
    lowered.Fits ∧ lowered.intervals = q.intervals ∧
      lowered.relativeIntervals = q.relativeIntervals := by
  obtain ⟨-, expanded, hexpand, rfl⟩ := lower_ok h
  obtain ⟨hfits, hintervals, hrelative⟩ := expand_fits hq hwindows hexpand
  exact ⟨lowerConvenience_fits c.options hfits, hintervals, hrelative⟩

theorem lower_spellable (hq : q.Spellable) (h : c.lower q = .ok lowered) : lowered.Spellable := by
  obtain ⟨-, expanded, hexpand, rfl⟩ := lower_ok h
  exact lowerConvenience_spellable c.options (expand_spellable hq hexpand)

theorem windows_scope {config : Config} {policy : Policy} {organization : List Uuid}
    {superOrg : Bool} {scope : Option Filter}
    (h : Scope.filter config policy q organization superOrg = .ok scope) :
    ∀ f ∈ scope, ∀ i, i ∉ f.windows := by
  have hrows (ids : List Uuid) (testMode : Option Bool) :
      ∀ f ∈ Scope.rowsOf ids testMode, ∀ i, i ∉ f.windows := by
    refine forall_windows_join fun f hf => ?_
    rcases List.mem_cons.1 hf with hf | hf
    · refine forall_windows_join (fun g hg => ?_) f hf.symm
      obtain ⟨id, -, hid⟩ := List.mem_map.1 hg
      cases hid
      exact List.forall_mem_nil _
    · cases List.mem_singleton.1 hf
      exact List.forall_mem_nil _
  unfold Scope.filter at h
  split at h
  · split at h
    · cases h
    · cases h
      exact hrows _ _
  · split at h
    · cases h
    · cases h
      exact hrows _ _
  · cases h
    exact hrows _ _
  · split at h
    · cases h
      simp
    · cases h

theorem merge_fits {context : Option Context} (config : Config) (h : ∀ c ∈ context, c.Fits) :
    (Context.merge context (contextDefaults config)).Fits := by
  cases context with
  | none => exact ⟨by simp [Context.merge, contextDefaults], by simp [Context.merge, contextDefaults],
      by simp [Context.merge, contextDefaults]⟩
  | some context =>
      obtain ⟨hpriority, htimestamp, hduration⟩ := h context rfl
      constructor
      · simpa [Context.merge, contextDefaults] using hpriority
      · simpa [Context.merge, contextDefaults] using htimestamp
      · simpa [Context.merge, contextDefaults] using hduration

theorem placed_spellable {policy : Policy} {scope : Option Filter} (hq : lowered.Spellable) :
    (c.placed policy lowered scope).Spellable := by
  rw [placed_eq]
  split
  · exact { hq with }
  · exact { hq with
      context := fun context hcontext => by
        cases hcontext
        exact merge_fits c.config hq.context }

theorem scope_spellable {organization : List Uuid} {superOrg : Bool} {out : Query}
    (hq : q.Spellable) (hlower : c.lower q = .ok lowered)
    (hscope : c.scope q lowered organization superOrg = .ok out) : out.Spellable := by
  obtain ⟨scope, -, rfl⟩ := scope_eq_ok.1 hscope
  exact placed_spellable (lower_spellable hq hlower)

theorem placed_fits {policy : Policy} {scope : Option Filter} (hq : lowered.Fits)
    (hscope : ∀ f ∈ scope, ∀ i, i ∉ f.windows) : (c.placed policy lowered scope).Fits := by
  have hfilter : ∀ f ∈ (Filter.allOf [lowered.filter, scope]).map Filter.normalize,
      ∀ i ∈ f.windows, i.Dated := by
    intro f hf
    obtain ⟨g, hg, rfl⟩ := Option.map_eq_some_iff.1 hf
    rw [Filter.windows_normalize]
    refine forall_windows_join (fun f' hf' => ?_) g hg
    rcases List.mem_cons.1 hf' with hf' | hf'
    · exact hq.filter f' hf'.symm
    · rw [List.mem_singleton] at hf'
      exact fun i hi => absurd hi (hscope f' hf'.symm i)
  have hspellable : (c.placed policy lowered scope).Spellable := placed_spellable hq.spellable
  rw [placed_eq] at hspellable ⊢
  exact { hspellable with
    filter := hfilter
    intervals := hq.intervals
    aggregations := hq.aggregations }

structure Runnable (q : Query) : Prop extends q.Plain where
  notVirtual : q.queryType.isVirtual = false
  intervals : (q.intervals.getD []).isEmpty = false

theorem Runnable.settled (h : Runnable q) : Runnable q.settled where
  toPlain := h.toPlain.settled
  notVirtual := h.notVirtual
  intervals := by
    have hsome := h.intervals
    rw [Query.settled]
    cases hintervals : q.intervals with
    | none => simp [hintervals] at hsome
    | some is =>
        cases is with
        | nil => simp [hintervals] at hsome
        | cons i is => rfl

theorem extensions_eq_nil (hclear : q.clearExtensions = q) : q.extensions = [] := by
  rw [← hclear]
  rfl

/-- A query that can be run is its own result, whatever the time. -/
theorem Runnable.runnableQuery_eq (c : Compiler) (h : Runnable q) :
    c.runnableQuery q = .ok (q, []) := by
  have hrelative := h.relativeIntervals
  simp only [runnableQuery, extensions_eq_nil h.extensions, h.notVirtual, List.isEmpty_nil,
    Bool.not_true, Bool.false_eq_true, if_false]
  split
  · rename_i r rs hsome
    rw [hsome] at hrelative
    cases hrelative
  · rw [h.intervals]
    rfl

theorem runnableQuery_ok {out : Query} {logs : List LogRecord} (hclear : q.clearExtensions = q)
    (h : c.runnableQuery q = .ok (out, logs)) :
    Runnable out ∧
      (out = q ∨ ∃ rs, q.relativeIntervals = some rs ∧
        out = { q with
          intervals := some (rs.map fun r => r.resolve c.now), relativeIntervals := none }) := by
  unfold runnableQuery at h
  split at h
  · cases h
  split at h
  · cases h
  rename_i hvirtual
  rw [Bool.not_eq_true] at hvirtual
  split at h
  · rename_i r rs hsome
    cases h
    refine ⟨⟨⟨?_, rfl⟩, hvirtual, rfl⟩, .inr ⟨r :: rs, hsome, rfl⟩⟩
    conv_rhs => rw [← hclear]
    rfl
  · rename_i hnone
    split at h
    · cases h
    rename_i hintervals
    cases h
    refine ⟨⟨⟨hclear, ?_⟩, hvirtual, Bool.not_eq_true _ ▸ hintervals⟩, .inl rfl⟩
    match hrelative : q.relativeIntervals with
    | none | some [] => rfl
    | some (r :: rs) => exact absurd hrelative (hnone r rs)

theorem clearExtensions_placed (policy : Policy) (scope : Option Filter) :
    (c.placed policy lowered scope).clearExtensions = c.placed policy lowered scope := by
  unfold placed
  dsimp only
  split <;> rfl

theorem intervals_placed (policy : Policy) (scope : Option Filter) :
    (c.placed policy lowered scope).intervals = lowered.intervals ∧
      (c.placed policy lowered scope).relativeIntervals = lowered.relativeIntervals := by
  unfold placed
  dsimp only
  split <;> exact ⟨rfl, rfl⟩

theorem compile_fits {organization : List Uuid} {superOrg : Bool} {out : Query} (hq : q.Fits)
    (hwindows : ∀ i ∈ q.windows ++ (q.relativeIntervals.getD []).map (·.resolve c.now), i.Moderate)
    (h : c.compile q organization superOrg = .ok out) : Runnable out ∧ out.Fits := by
  rw [compile, bind_eq_ok] at h
  obtain ⟨⟨p, records⟩, hprecompile, h⟩ := h
  rw [bind_eq_ok] at h
  obtain ⟨⟨out', logs⟩, hrunnable, h⟩ := h
  cases h
  rw [mapError_eq_ok, runnable] at hrunnable
  obtain ⟨lowered, -, hlower, hscope, -⟩ := precompile_ok hprecompile
  obtain ⟨scope, hfilter, hplaced⟩ := scope_eq_ok.1 hscope
  obtain ⟨hlowered, hintervals, hrelative⟩ := lower_fits hq hwindows hlower
  have hfits : p.query.Fits := hplaced ▸ placed_fits hlowered (windows_scope hfilter)
  have hclear : p.query.clearExtensions = p.query := hplaced ▸ clearExtensions_placed _ _
  have hsame : p.query.relativeIntervals = q.relativeIntervals := by
    rw [← hplaced, (intervals_placed _ _).2, hrelative]
  obtain ⟨hrun, hout⟩ := runnableQuery_ok hclear hrunnable
  refine ⟨hrun, ?_⟩
  rcases hout with rfl | ⟨rs, hrs, rfl⟩
  · exact hfits
  · refine { hfits with intervals := fun is his i hi => ?_ }
    cases his
    refine (hwindows i (List.mem_append_right _ ?_)).dated
    rwa [← hsame, hrs]

/-- What has been compiled is read back from its canonical text, can be run at any time, and has
the same canonical text again. -/
theorem compileText_fixpoint (c : Compiler) (text : String) (organization : List Uuid)
    (superOrg : Bool) {out : String} (h : c.compileText text organization superOrg = .ok out)
    (hyears : ∀ q, Query.parse text = .ok q →
      ∀ i ∈ q.windows ++ (q.relativeIntervals.getD []).map (·.resolve c.now), i.Moderate) :
    ∃ q, Query.parse out = .ok q ∧ ∀ c' : Compiler, ∃ run logs,
      c'.runnableQuery q = .ok (run, logs) ∧ run.canonical = .ok out := by
  rw [compileText, bind_eq_ok] at h
  obtain ⟨q, hparse, h⟩ := h
  rw [bind_eq_ok] at h
  obtain ⟨run, hcompile, hout⟩ := h
  have hwindows := hyears q hparse
  rw [Query.parse, bind_eq_ok] at hparse
  obtain ⟨j, -, hread⟩ := hparse
  obtain ⟨hrun, hfits⟩ := compile_fits (Query.written_of_read hread).toFits hwindows hcompile
  have halike := Query.alike hrun.toPlain hfits
  have hsettles := (canonical_eq_ok.1 hout).2.1
  refine ⟨run.settled, ?_, fun c' => ⟨run.settled, [], hrun.settled.runnableQuery_eq c', ?_⟩⟩
  · rw [Query.parse, parse_canonical halike.proper hout, ok_bind]
    exact Query.read_settled hrun.toPlain hfits hsettles
  · exact halike.canonical_eq hout

def recentAbroad : Json := .object [
  ("queryType", .string "timeseries"), ("granularity", .string "day"),
  ("baseFilters", .string "noFilter"), ("aggregations", .array []),
  ("relativeIntervals", .array [.object [
    ("beginningDate", .object [("component", .string "month"), ("offset", .number "-1"),
      ("position", .string "beginning")]),
    ("endDate", .object [("component", .string "day"), ("offset", .number "0"),
      ("position", .string "end")])]]),
  ("filter", .object [("type", .string "not"), ("field", .object [("type", .string "selector"),
    ("dimension", .string "country"), ("value", .string "Re\u0301union")])])]

theorem compileText_fixpoint_recentAbroad :
    ∃ out, (⟨.standard, ⟨0⟩⟩ : Compiler).compileText (writePlain recentAbroad) [] true = .ok out ∧
      ∃ q, Query.parse out = .ok q ∧ ∀ c' : Compiler, ∃ run logs,
        c'.runnableQuery q = .ok (run, logs) ∧ run.canonical = .ok out := by
  have hspelled : recentAbroad.Spelled := by
    simp only [recentAbroad, Spelled, Everywhere, EverywhereItems, EverywhereMembers, HasLiterals]
    decide
  have hparse : Query.parse (writePlain recentAbroad) = Query.read recentAbroad := by
    rw [Query.parse, parse_writePlain hspelled (by decide), ok_bind]
  have hok : (Query.read recentAbroad >>= fun q =>
      (⟨.standard, ⟨0⟩⟩ : Compiler).compile q [] true >>= Query.canonical).isOk = true := by
    decide +kernel
  have hyears : ∀ q ∈ (Query.read recentAbroad).toOption,
      ∀ i ∈ q.windows ++ (q.relativeIntervals.getD []).map (·.resolve ⟨0⟩), i.Moderate := by
    decide +kernel
  rw [← hparse] at hok
  obtain ⟨out, hout⟩ := exists_of_isOk hok
  refine ⟨out, hout, compileText_fixpoint _ _ _ _ hout fun q hq => hyears q ?_⟩
  rw [← hparse, hq]
  rfl

end Compiler

end TenantQuery
