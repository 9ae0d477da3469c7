import TenantQuery.Proofs.Compiler.Phases
import TenantQuery.Proofs.Expansion.Settled
import TenantQuery.Proofs.Query.Equality

namespace TenantQuery

open Json Outcome

/-- Errors of the same code and field, where they are the compiler's; other errors are the same. -/
def Error.Kindred : Error → Error → Prop
  | .compile e, .compile e' => e.Kindred e'
  | e, e' => e = e'

theorem Error.Kindred.refl (e : Error) : e.Kindred e := by
  cases e with
  | compile e => exact ⟨rfl, rfl⟩
  | _ => rfl

theorem Context.merge_settled (c : Option Context) (defaults : Context) :
    (merge c defaults).settled = merge (c.map settled) defaults.settled := by
  match c with
  | none => rfl
  | some ⟨none, _, _, _, _, _, _, _⟩ | some ⟨some _, _, _, _, _, _, _, _⟩ => rfl

namespace Compiler

variable (c : Compiler) {q q' : Query}

theorem checkIntervals_settled (q : Query) : checkIntervals q.settled = checkIntervals q := by
  have hpresent {α : Type} (v : Option (List α)) :
      ((present v).getD []).isEmpty = (v.getD []).isEmpty := by
    match v with
    | none | some [] | some (_ :: _) => rfl
  have hmap {α β : Type} (f : α → β) (v : Option (List α)) :
      ((v.map (·.map f)).getD []).isEmpty = (v.getD []).isEmpty := by
    match v with
    | none | some [] | some (_ :: _) => rfl
  simp only [checkIntervals, Query.settled, hmap, hpresent]

theorem checkTopN_settled (q : Query) : checkTopN q.settled = checkTopN q := by
  simp only [checkTopN, Query.settled, Option.isNone_map]

theorem expand_congr (h : q.Akin q')
    (hwhole : q.queryType = .retention → Expansion.Retention.Whole q ∧ Expansion.Retention.Whole q') :
    Matched CompileError.Kindred Query.Akin (c.expand q) (c.expand q') := by
  rw [expand, expand, ← h.agree Query.queryType fun _ => rfl]
  cases hq : q.queryType with
  | funnel => exact Expansion.funnel_congr c.options h
  | retention => exact Expansion.retention_congr c.options h (hwhole hq).1 (hwhole hq).2
  | experiment => exact Expansion.experiment_congr c.options h
  | timeseries | groupBy | topN | scan | timeBoundary => exact .ok h

theorem lowering_congr (h : q.Akin q') : (c.lowering q).Akin (c.lowering q') := by
  obtain ⟨has, hps⟩ := Expansion.lowerConvenience_congr c.options
    (present_map_eq_iff.1 (congrArg Query.aggregations h.settled))
    (present_map_eq_iff.1 (congrArg Query.postAggregations h.settled))
  refine ⟨?_, ⟨h.steady.dimension, h.steady.dimensions⟩,
    ⟨h.steady'.dimension, h.steady'.dimensions⟩⟩
  have hsettled (q : Query) : (c.lowering q).settled =
      { q.settled with
        aggregations := (present (c.lowering q).aggregations).map (·.map Aggregator.settled)
        postAggregations :=
          (present (c.lowering q).postAggregations).map (·.map PostAggregator.settled) } := rfl
  rw [hsettled, hsettled, h.settled, lowering, lowering, present_map_eq_iff.2 has,
    present_map_eq_iff.2 hps]

theorem placed_congr (h : q.Akin q') (policy : Policy) (scope : Option Filter) :
    (c.placed policy q scope).Akin (c.placed policy q' scope) := by
  have hown : q.filter.map Filter.settled = q'.filter.map Filter.settled :=
    congrArg Query.filter h.settled
  have hscoped : (Filter.allOf [q.filter, scope]).map Filter.settled =
      (Filter.allOf [q'.filter, scope]).map Filter.settled :=
    Filter.join_congr .all (by simp only [List.map_cons, hown, List.map_nil])
  have hnormal (f : Option Filter) :
      (f.map Filter.normalize).map Filter.settled = (f.map Filter.settled).map Filter.normalize := by
    simp only [Option.map_map, Function.comp_def, Filter.normalize_settled]
  have hcontext : q.context.map Context.settled = q'.context.map Context.settled :=
    congrArg Query.context h.settled
  have hsettled (q : Query) : (c.placed policy q scope).settled =
      { q.settled.clearExtensions with
        filter := ((Filter.allOf [q.filter, scope]).map Filter.settled).map Filter.normalize
        dataSource :=
          if policy = .noFilter then q.settled.dataSource else Text.normal c.config.dataSource
        context :=
          if policy = .noFilter then q.settled.context
          else some (Context.merge (q.context.map Context.settled)
            (contextDefaults c.config).settled) } := by
    rw [placed_eq, ← hnormal, ← Context.merge_settled]
    by_cases hpolicy : policy = .noFilter <;> simp only [hpolicy, if_true, if_false] <;> rfl
  refine ⟨?_, ?_, ?_⟩
  · rw [hsettled, hsettled, h.settled, hscoped, hcontext]
  · rw [placed_eq]
    exact ⟨h.steady.dimension, h.steady.dimensions⟩
  · rw [placed_eq]
    exact ⟨h.steady'.dimension, h.steady'.dimensions⟩

theorem lower_congr (h : q.Akin q')
    (hwhole : q.queryType = .retention → Expansion.Retention.Whole q ∧ Expansion.Retention.Whole q') :
    Matched CompileError.Kindred Query.Akin (c.lower q) (c.lower q') := by
  have hcheck {x y : Except CompileError Unit} (hxy : x = y) :
      Matched CompileError.Kindred (fun _ _ => True) x y :=
    hxy ▸ .refl .refl (fun _ => trivial) x
  refine (hcheck (h.agree checkIntervals checkIntervals_settled)).bind fun _ _ _ => ?_
  refine (c.expand_congr h hwhole).bind fun e e' he => ?_
  have hlowering := c.lowering_congr he
  have htype : (c.lowering e).queryType = (c.lowering e').queryType :=
    hlowering.agree Query.queryType fun _ => rfl
  show Matched _ _ (if (c.lowering e).queryType = .topN then _ else _)
    (if (c.lowering e').queryType = .topN then _ else _)
  rw [htype]
  split
  · exact (hcheck (hlowering.agree checkTopN checkTopN_settled)).bind fun _ _ _ => .ok hlowering
  · exact .ok hlowering

theorem scope_congr (h : q.Akin q') {lowered lowered' : Query} (hlowered : lowered.Akin lowered')
    (organization : List Uuid) (superOrg : Bool) :
    Matched CompileError.Kindred Query.Akin
      (c.scope q lowered organization superOrg) (c.scope q' lowered' organization superOrg) := by
  have hfilter : Scope.filter c.config (Scope.policyOf q) q organization superOrg =
      Scope.filter c.config (Scope.policyOf q') q' organization superOrg :=
    h.agree (fun q => Scope.filter c.config (Scope.policyOf q) q organization superOrg)
      fun _ => rfl
  have hpolicy : Scope.policyOf q = Scope.policyOf q' := h.agree Scope.policyOf fun _ => rfl
  rw [scope_eq, scope_eq, hfilter, hpolicy]
  cases Scope.filter c.config (Scope.policyOf q') q' organization superOrg with
  | error e => exact .error ⟨rfl, rfl⟩
  | ok scope => exact .ok (c.placed_congr hlowered (Scope.policyOf q') scope)

theorem precompile_akin (h : q.Akin q')
    (hwhole : q.queryType = .retention → Expansion.Retention.Whole q ∧ Expansion.Retention.Whole q')
    (organization : List Uuid) (superOrg : Bool) :
    Matched Error.Kindred (fun r r' => r.1.hash = r'.1.hash)
      (c.precompile q organization superOrg) (c.precompile q' organization superOrg) := by
  have hcompile {α : Type} {R : α → α → Prop} {x y : Except CompileError α}
      (hxy : Matched CompileError.Kindred R x y) :
      Matched Error.Kindred R (x.mapError .compile) (y.mapError .compile) :=
    hxy.mapError fun _ _ he => he
  refine (hcompile (c.lower_congr h hwhole)).bind fun lowered lowered' hlowered => ?_
  refine (hcompile (c.scope_congr h hlowered organization superOrg)).bind fun out out' hout => ?_
  have hhash : out.encode.hash precompiledDomain = out'.encode.hash precompiledDomain := by
    rw [Json.hash, Json.hash, hout.twin.canonical_eq]
  rw [hhash]
  exact (Matched.refl .refl (fun _ => rfl) (out'.encode.hash precompiledDomain)).bind
    fun hash hash' heq => .ok heq

/-- Documents with the same canonical form are refused with the same code and field, or get the same
hash. -/
theorem precompile_congr {text text' : String} (hq : Query.parse text = .ok q)
    (hq' : Query.parse text' = .ok q') (hequal : q.equal q' = true)
    (hwhole : q.queryType = .retention → Expansion.Retention.Whole q ∧ Expansion.Retention.Whole q')
    (organization : List Uuid) (superOrg : Bool) :
    Matched Error.Kindred (fun r r' => r.1.hash = r'.1.hash)
      (c.precompile q organization superOrg) (c.precompile q' organization superOrg) := by
  obtain ⟨j, -, hread⟩ := bind_eq_ok.1 hq
  obtain ⟨j', -, hread'⟩ := bind_eq_ok.1 hq'
  have hwritten := Query.written_of_read hread
  have hwritten' := Query.written_of_read hread'
  obtain ⟨out, hout, hout'⟩ := Query.equal_iff.1 hequal
  have hakin : q.Akin q' :=
    ⟨hwritten.settled_eq hwritten' hequal, hwritten.steady (canonical_eq_ok.1 hout).2.1,
      hwritten'.steady (canonical_eq_ok.1 hout').2.1⟩
  exact c.precompile_akin hakin hwhole organization superOrg

def lastMonthsText (empty : Option String) : Json := .object ([
  ("queryType", .string "retention"), ("granularity", .string "all"),
  ("baseFilters", .string "noFilter"),
  ("relativeIntervals", .array [.object [
    ("beginningDate", .object [("component", .string "month"), ("offset", .number "-1"),
      ("position", .string "beginning")]),
    ("endDate", .object [("component", .string "month"), ("offset", .number "0"),
      ("position", .string "end")])]])] ++ (empty.map fun name => (name, .array [])).toList)

def lastMonths : Query where
  queryType := .retention
  granularity := .all
  baseFilters := some .noFilter
  relativeIntervals := some [⟨⟨.month, -1, .beginning⟩, ⟨.month, 0, .ending⟩⟩]

theorem parse_lastMonthsText (empty : Option String) :
    Query.parse (writePlain (lastMonthsText empty)) = Query.read (lastMonthsText empty) := by
  have hspelled : (lastMonthsText empty).Spelled := by
    cases empty <;> simp only [lastMonthsText, Option.map_none, Option.map_some, Option.toList_none,
      Option.toList_some, List.cons_append, List.nil_append, Spelled, Everywhere, EverywhereItems,
      EverywhereMembers, HasLiterals] <;> decide
  have hdepth : (lastMonthsText empty).depth ≤ maxDepth := by
    cases empty <;> exact Nat.le_of_ble_eq_true rfl
  rw [Query.parse, parse_writePlain hspelled hdepth, ok_bind]

theorem equal_lastMonths {q : Query} (h : q.encode = lastMonths.encode) :
    lastMonths.equal q = true := by
  obtain ⟨text, htext⟩ := exists_of_isOk (show lastMonths.canonical.isOk = true by decide +kernel)
  refine Query.equal_iff.2 ⟨text, htext, ?_⟩
  rw [Query.canonical, h]
  exact htext

theorem precompile_congr_lastMonths :
    Query.parse (writePlain (lastMonthsText none)) = .ok lastMonths ∧
    Query.parse (writePlain (lastMonthsText (some "steps"))) =
      .ok { lastMonths with steps := some [] } ∧
    lastMonths.equal { lastMonths with steps := some [] } = true ∧
    Matched Error.Kindred (fun r r' => r.1.hash = r'.1.hash)
      ((⟨.standard, ⟨0⟩⟩ : Compiler).precompile lastMonths [] true)
      ((⟨.standard, ⟨0⟩⟩ : Compiler).precompile { lastMonths with steps := some [] } [] true) := by
  have hparse : Query.parse (writePlain (lastMonthsText none)) = .ok lastMonths :=
    parse_lastMonthsText none
  have hparse' : Query.parse (writePlain (lastMonthsText (some "steps"))) =
      .ok { lastMonths with steps := some [] } :=
    parse_lastMonthsText (some "steps")
  have hequal : lastMonths.equal { lastMonths with steps := some [] } = true := equal_lastMonths rfl
  refine ⟨hparse, hparse', hequal, precompile_congr _ hparse hparse' hequal
    (fun _ => ⟨?_, ?_⟩) [] true⟩
  · intro is his
    cases his
  · intro is his
    cases his

theorem precompile_emptyIntervals :
    Query.parse (writePlain (lastMonthsText none)) = .ok lastMonths ∧
    Query.parse (writePlain (lastMonthsText (some "intervals"))) =
      .ok { lastMonths with intervals := some [] } ∧
    lastMonths.equal { lastMonths with intervals := some [] } = true ∧
    (⟨.standard, ⟨0⟩⟩ : Compiler).precompile { lastMonths with intervals := some [] } [] true =
      .error (.compile .noWindow) ∧
    ¬ Matched Error.Kindred (fun r r' => r.1.hash = r'.1.hash)
      ((⟨.standard, ⟨0⟩⟩ : Compiler).precompile lastMonths [] true)
      ((⟨.standard, ⟨0⟩⟩ : Compiler).precompile { lastMonths with intervals := some [] } [] true) := by
  have hrefused : (⟨.standard, ⟨0⟩⟩ : Compiler).precompile { lastMonths with intervals := some [] } []
      true = .error (.compile .noWindow) := rfl
  refine ⟨parse_lastMonthsText none, parse_lastMonthsText (some "intervals"), equal_lastMonths rfl,
    hrefused, fun h => ?_⟩
  rw [hrefused] at h
  obtain ⟨expanded, hexpand⟩ : ∃ expanded,
      Compiler.expand ⟨.standard, ⟨0⟩⟩ lastMonths = .ok expanded := ⟨_, rfl⟩
  have hlower : Compiler.lower ⟨.standard, ⟨0⟩⟩ lastMonths =
      .ok (lowering ⟨.standard, ⟨0⟩⟩ expanded) := by
    refine lower_eq_ok.2 ⟨rfl, expanded, hexpand, fun htop => ?_, rfl⟩
    obtain ⟨window, -, -, rfl⟩ := Expansion.retention_ok hexpand
    cases htop
  have hscope : Compiler.scope ⟨.standard, ⟨0⟩⟩ lastMonths (lowering ⟨.standard, ⟨0⟩⟩ expanded) []
      true = .ok (placed ⟨.standard, ⟨0⟩⟩ .noFilter (lowering ⟨.standard, ⟨0⟩⟩ expanded) none) := rfl
  -- What has been lowered and scoped is refused by the compiler no more.
  generalize hresult : Compiler.precompile ⟨.standard, ⟨0⟩⟩ lastMonths [] true = result at h
  cases h with
  | error hkindred =>
      obtain ⟨cause, -, rfl⟩ := precompile_error hlower hscope hresult
      cases hkindred

end Compiler

end TenantQuery
