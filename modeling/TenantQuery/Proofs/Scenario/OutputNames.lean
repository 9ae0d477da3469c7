import TenantQuery.Proofs.Compiler.Emission
import TenantQuery.Proofs.Compiler.Progress
import TenantQuery.Proofs.Query.Ranged

namespace TenantQuery

open Json Outcome

namespace Json

theorem lastOf_eq_some {α : Type} {ms : List (String × α)} (h : (ms.map (·.1)).Nodup)
    {key : String} {a : α} : lastOf ms key = some a ↔ (key, a) ∈ ms := by
  rw [← lastWins_of_nodup h, mem_lastWins, lastWins_of_nodup h]

theorem plainMembers_eq_ok {ms es : List (String × Json)} (h : plainMembers ms = .ok es) :
    es.map (fun e => (e.1, Except.ok e.2)) = ms.map fun m => (m.1, plain m.2) := by
  induction ms generalizing es with
  | nil =>
      cases h
      rfl
  | cons m ms ih =>
      rw [plainMembers] at h
      obtain ⟨k, hk, h⟩ := bind_eq_ok.1 h
      obtain ⟨es', hes', h⟩ := bind_eq_ok.1 h
      cases h
      rw [List.map_cons, List.map_cons, ih hes', hk]

theorem mem_plainMembers {ms es : List (String × Json)} (h : plainMembers ms = .ok es)
    {key : String} {k : Json} : (key, k) ∈ es ↔ ∃ j, (key, j) ∈ ms ∧ plain j = .ok k := by
  have hes : (key, k) ∈ es ↔
      (key, Except.ok k) ∈ es.map fun e => (e.1, (Except.ok e.2 : Except Error Json)) := by
    simp
  rw [hes, plainMembers_eq_ok h]
  simp only [List.mem_map, Prod.mk.injEq, Prod.exists]
  constructor
  · rintro ⟨_, j, hj, rfl, hk⟩
    exact ⟨j, hj, hk⟩
  · rintro ⟨j, hj, hk⟩
    exact ⟨key, j, hj, rfl, hk⟩

theorem keys_plainMembers {ms es : List (String × Json)} (h : plainMembers ms = .ok es) :
    es.map (·.1) = ms.map (·.1) := by
  have hkeys := congrArg (List.map Prod.fst) (plainMembers_eq_ok h)
  rw [List.map_map, List.map_map] at hkeys
  exact hkeys

/-- The members that are read from a normal form are those that are not null, under composed
names. -/
theorem lastOf_plain_settled {ms : List (String × Json)} {k : Json} (hkeys : (ms.map (·.1)).Nodup)
    (hsettles : (object ms).Settles) (h : plain (object ms).settled = .ok k) :
    ∃ ks, k = .object ks ∧ ∀ key v, lastOf ks key = some v ↔
      ∃ m ∈ ms, Text.normal m.1 = key ∧ m.2.isNull = false ∧ plain m.2.settled = .ok v := by
  have hkept := ((settles_object hkeys).1 hsettles).2
  have hperm := perm_sortByUnits (kept ms)
  rw [settled_object hkeys hsettles, plain] at h
  obtain ⟨es, hes, rfl⟩ := map_eq_ok.1 h
  have hnodup : (es.map (·.1)).Nodup := by
    rw [keys_plainMembers hes]
    exact ((hperm.map _).nodup_iff).2 hkept
  refine ⟨_, rfl, fun key v => ?_⟩
  -- The keys of a normal form are distinct, so that the last member of a key is the only one.
  rw [lastOf_eq_some (ordered_sortMembers es).nodup, (perm_sortMembers hnodup).mem_iff,
    mem_plainMembers hes]
  simp only [hperm.mem_iff, mem_kept, Prod.mk.injEq, isNull_settled]
  constructor
  · rintro ⟨_, ⟨m, hm, hnull, rfl, rfl⟩, hv⟩
    exact ⟨m, hm, rfl, hnull, hv⟩
  · rintro ⟨m, hm, rfl, hnull, hv⟩
    exact ⟨_, ⟨m, hm, hnull, rfl, rfl⟩, hv⟩

theorem lastOf_plain_filled {places : List (String × Option Json)} {k : Json}
    (h : Orderly places) (hsettles : (object (filled places)).Settles)
    (hk : plain (object (filled places)).settled = .ok k) :
    ∃ ks, k = .object ks ∧ ∀ p ∈ places, ∀ v, lastOf ks p.1 = some v ↔
      ∃ j ∈ p.2, plain j.settled = .ok v := by
  obtain ⟨ks, rfl, hlast⟩ := lastOf_plain_settled h.nodup_filled hsettles hk
  refine ⟨ks, rfl, fun p hp v => ?_⟩
  rw [hlast]
  constructor
  · rintro ⟨m, hm, hkey, -, hv⟩
    obtain ⟨p', hp', hname, hj⟩ := mem_filled.1 hm
    rw [← hname, h.plain p' hp'] at hkey
    obtain rfl := eq_of_mem_of_fst_eq h.nodup hp' hp hkey
    exact ⟨m.2, hj, hv⟩
  · rintro ⟨j, hj, hv⟩
    exact ⟨(p.1, j), mem_filled.2 ⟨p, hp, rfl, hj⟩, h.plain p hp, (h.solid p hp j hj).notNull, hv⟩

theorem mem_plainItems {js ks : List Json} (h : plainItems js = .ok ks) {k : Json} :
    k ∈ ks ↔ ∃ j ∈ js, plain j = .ok k := by
  induction js generalizing ks with
  | nil =>
      cases h
      simp
  | cons j js ih =>
      rw [plainItems] at h
      obtain ⟨k', hk', h⟩ := bind_eq_ok.1 h
      obtain ⟨ks', hks', h⟩ := bind_eq_ok.1 h
      cases h
      rw [List.mem_cons, ih hks', List.exists_mem_cons_iff, hk', Except.ok.injEq, eq_comm]

end Json

namespace Assertion

variable {ms : List (String × Json)} {k : Json}

theorem nameOf?_of_mem (hkeys : (ms.map (·.1)).Nodup) (hsettles : (object ms).Settles)
    (h : plain (object ms).settled = .ok k) {name : String} (hname : ("name", .string name) ∈ ms) :
    nameOf? k = some (Text.normal name) := by
  obtain ⟨ks, rfl, hlast⟩ := lastOf_plain_settled hkeys hsettles h
  have hread : lastOf ks "name" = some (.string (Text.normal name)) := by
    have hkey : Text.normal "name" = "name" := Text.normal_eq_self (by decide)
    exact (hlast _ _).2 ⟨_, hname, hkey, rfl, by rw [settled_string]; rfl⟩
  simp only [nameOf?, hread]

theorem nameOf?_eq_none (hkeys : (ms.map (·.1)).Nodup) (hsettles : (object ms).Settles)
    (h : plain (object ms).settled = .ok k) (hnames : ∀ m ∈ ms, Text.normal m.1 ≠ "name") :
    nameOf? k = none := by
  obtain ⟨ks, rfl, hlast⟩ := lastOf_plain_settled hkeys hsettles h
  have hread : lastOf ks "name" = none := by
    rw [Option.eq_none_iff_forall_ne_some]
    intro v hv
    obtain ⟨m, hm, hname, -⟩ := (hlast _ _).1 hv
    exact hnames m hm hname
  simp only [nameOf?, hread]

theorem failure?_outputNames {doc : Json} {names : List String} :
    failure? doc (.outputNames names) = none ↔ ∀ n ∈ names, n ∈ outputsOf doc := by
  have hmissing : (names.filter fun name => !(outputsOf doc).contains name).isEmpty = true ↔
      ∀ n ∈ names, n ∈ outputsOf doc := by
    simp [List.filter_eq_nil_iff]
  rw [← hmissing, failure?]
  split
  · rename_i hempty
    exact iff_of_true rfl hempty
  · rename_i hempty
    exact iff_of_false (by simp) hempty

theorem mem_outputsOf {doc : Json} {n : String} :
    n ∈ outputsOf doc ↔ (∃ k ∈ itemsAt doc "aggregations", nameOf? k = some n) ∨
      ∃ k ∈ itemsAt doc "postAggregations", nameOf? k = some n := by
  simp only [outputsOf, List.mem_filterMap, List.mem_append, or_and_right, exists_or]

end Assertion

def Aggregator.isNamed : Aggregator → Bool
  | .filtered _ _ name => name.isSome
  | _ => true

def PostAggregator.isNamed : PostAggregator → Bool
  | .fieldAccess name _ | .finalizingFieldAccess name _ | .sketchSetOp name _ _ _ => name.isSome
  | _ => true

def Json.Labelled (j : Json) (named : Bool) (name : String) : Prop :=
  ∃ ms, j = .object ms ∧
    if named then ("name", .string name) ∈ ms else ∀ m ∈ ms, Text.normal m.1 ≠ "name"

theorem Text.normal_ne_name {key : String}
    (h : key ∈ ["type", "filter", "aggregator", "fieldName", "func", "size", "fields"]) :
    Text.normal key ≠ "name" := by
  have hplain : Text.normal key = key := by
    refine normal_eq_self ?_
    revert key
    decide
  rw [hplain]
  revert key
  decide

theorem Aggregator.labelled {a : Aggregator} (h : a.isLowered = true) :
    Labelled a.encode a.isNamed a.outputName := by
  cases a with
  | filtered filter inner name =>
      -- The name of the one inside is written inside only.
      refine ⟨_, rfl, ?_⟩
      cases name <;> simp [isNamed, outputName, ifSome, Text.normal_ne_name]
  | userCount _ | eventCount _ | histogram _ => cases h
  | count name => exact ⟨_, rfl, by simp [isNamed, outputName]⟩
  | column _ a | thetaSketch a | hyperUnique a | cardinality a | quantilesSketch a =>
      exact ⟨_, rfl, by simp [isNamed, outputName, columnMembers]⟩

theorem PostAggregator.labelled (p : PostAggregator) :
    Labelled p.encode p.isNamed p.outputName := by
  cases p with
  | fieldAccess name _ | finalizingFieldAccess name _ =>
      refine ⟨_, rfl, ?_⟩
      cases name <;> simp [isNamed, outputName, ifSome, Text.normal_ne_name]
  | sketchSetOp name operation size operands =>
      refine ⟨_, encode_sketchSetOp _ _ _ _, ?_⟩
      cases name <;> cases size <;> simp [isNamed, outputName, ifSome, Text.normal_ne_name]
  | arithmetic _ _ _ _ | constant _ _ | extremum _ _ _ | expression _ _ _
  | hyperUniqueCardinality _ _ | sketchEstimate _ _ | sketchHistogram _ _ _ | zScore _ _ _ _ _
  | pValue _ _ => exact ⟨_, rfl, by simp [isNamed, outputName, Aggregator.columnMembers]⟩

theorem Json.Labelled.nameOf? {j k : Json} {named : Bool} {name : String}
    (h : Labelled j named name) (hproper : j.Proper) (hsettles : j.Settles)
    (hread : plain j.settled = .ok k) :
    Assertion.nameOf? k = if named then some (Text.normal name) else none := by
  obtain ⟨ms, rfl, hms⟩ := h
  have hkeys : (ms.map (·.1)).Nodup := (everywhere_object.1 hproper).1
  cases named with
  | true => exact Assertion.nameOf?_of_mem hkeys hsettles hread hms
  | false => exact Assertion.nameOf?_eq_none hkeys hsettles hread hms

namespace Assertion

section Lists

variable {places : List (String × Option Json)} {doc : Json} {α : Type} {encode : α → Json}
  {v : Option (List α)} {key : String}

theorem mem_itemsAt (h : Orderly places) (hsettles : (object (filled places)).Settles)
    (hdoc : plain (object (filled places)).settled = .ok doc) (hsplit : Text.split '.' key = [key])
    (hplace : (key, listed encode v) ∈ places)
    (hranged : ∀ as ∈ v, ∀ a ∈ as, (encode a).Ranged) {k : Json} :
    k ∈ itemsAt doc key ↔ ∃ a ∈ v.getD [], plain (encode a).settled = .ok k := by
  obtain ⟨ks, rfl, hread⟩ := lastOf_plain_filled h hsettles hdoc
  have hlast := hread _ hplace
  have hlookup : (object ks).lookup? key = lastOf ks key := by
    rw [lookup?, hsplit]
    simp [child?]
  match v with
  | none | some [] =>
      have hnone : lastOf ks key = none := by
        rw [Option.eq_none_iff_forall_ne_some]
        intro w hw
        obtain ⟨j, hj, -⟩ := (hlast w).1 hw
        cases hj
      simp [itemsAt, hlookup, hnone]
  | some (a :: as) =>
      have hlist : (array ((a :: as).map encode)).Settles := h.settles hsettles _ hplace _ rfl
      have hranged : (array ((a :: as).map encode)).Ranged := by
        simpa using hranged _ rfl
      obtain ⟨w, hw⟩ := (hranged.settled hlist).exists_plain
      have hfound : lastOf ks key = some w := (hlast w).2 ⟨_, rfl, hw⟩
      rw [settled_array hlist, plain] at hw
      obtain ⟨items, hitems, rfl⟩ := map_eq_ok.1 hw
      simp only [itemsAt, hlookup, hfound, Option.getD_some]
      rw [mem_plainItems hitems]
      simp only [List.map_map, List.mem_map, Function.comp, exists_exists_and_eq_and]

theorem exists_nameOf?_iff (h : Orderly places) (hsettles : (object (filled places)).Settles)
    (hdoc : plain (object (filled places)).settled = .ok doc) (hsplit : Text.split '.' key = [key])
    (hplace : (key, listed encode v) ∈ places)
    (hranged : ∀ as ∈ v, ∀ a ∈ as, (encode a).Ranged) {named : α → Bool} {name : α → String}
    (hlabelled : ∀ as ∈ v, ∀ a ∈ as, Labelled (encode a) (named a) (name a)) {n : String} :
    (∃ k ∈ itemsAt doc key, nameOf? k = some n) ↔
      ∃ a ∈ v.getD [], named a = true ∧ Text.normal (name a) = n := by
  have hitem (a : α) (ha : a ∈ v.getD []) : ∃ k, plain (encode a).settled = .ok k ∧
      nameOf? k = if named a then some (Text.normal (name a)) else none := by
    match v with
    | none | some [] => cases ha
    | some (b :: bs) =>
        have hlist := h.settles hsettles _ hplace _ rfl
        have hproper := (everywhere_array.1 (h.solid _ hplace _ rfl).proper).2
        have ha' : encode a ∈ (b :: bs).map encode := List.mem_map_of_mem ha
        have hsettles := settles_array.1 hlist _ ha'
        obtain ⟨k, hk⟩ := ((hranged _ rfl a ha).settled hsettles).exists_plain
        exact ⟨k, hk, (hlabelled _ rfl a ha).nameOf? (hproper _ ha') hsettles hk⟩
  simp only [mem_itemsAt h hsettles hdoc hsplit hplace hranged]
  constructor
  · rintro ⟨k, ⟨a, ha, hk⟩, hname⟩
    obtain ⟨k', hk', hname'⟩ := hitem a ha
    rw [hk, Except.ok.injEq] at hk'
    rw [← hk', hname] at hname'
    refine ⟨a, ha, ?_⟩
    cases hnamed : named a with
    | true => simpa [hnamed] using hname'.symm
    | false => simp [hnamed] at hname'
  · rintro ⟨a, ha, hnamed, rfl⟩
    obtain ⟨k, hk, hname⟩ := hitem a ha
    exact ⟨k, ⟨a, ha, hk⟩, by rw [hname, hnamed, if_pos rfl]⟩

end Lists

end Assertion

namespace Query

variable {q : Query}

def Outputs (q : Query) (n : String) : Prop :=
  (∃ a ∈ q.aggregations.getD [], Text.normal a.outputName = n) ∨
    ∃ p ∈ q.postAggregations.getD [], Text.normal p.outputName = n

/-- The composed name of an output that is written with a name. -/
def Labels (q : Query) (n : String) : Prop :=
  (∃ a ∈ q.aggregations.getD [], a.isNamed = true ∧ Text.normal a.outputName = n) ∨
    ∃ p ∈ q.postAggregations.getD [], p.isNamed = true ∧ Text.normal p.outputName = n

theorem mem_outputsOf (h : q.Spellable)
    (hlowered : ∀ as ∈ q.aggregations, ∀ a ∈ as, a.isLowered = true)
    (hsettles : q.encode.Settles) {doc : Json} (hdoc : plain q.encode.settled = .ok doc)
    {n : String} : n ∈ Assertion.outputsOf doc ↔ q.Labels n := by
  rw [encode_eq_places] at hsettles hdoc
  rw [Assertion.mem_outputsOf]
  refine or_congr ?_ ?_
  · exact Assertion.exists_nameOf?_iff h.orderly hsettles hdoc rfl (by simp [places])
      (fun as has a ha => a.ranged (h.aggregations as has a ha))
      (fun as has a ha => Aggregator.labelled (hlowered as has a ha))
  · exact Assertion.exists_nameOf?_iff h.orderly hsettles hdoc rfl (by simp [places])
      (fun ps hps p hp => p.ranged (h.postAggregations ps hps p hp)) (fun _ _ p _ => p.labelled)

theorem Labels.outputs {n : String} : q.Labels n → q.Outputs n
  | .inl ⟨a, ha, _, hname⟩ => .inl ⟨a, ha, hname⟩
  | .inr ⟨p, hp, _, hname⟩ => .inr ⟨p, hp, hname⟩

theorem outputNames_of_canonical (h : q.Spellable)
    (hoffsets : ∀ rs ∈ q.relativeIntervals, ∀ r ∈ rs, r.Fits)
    (hlowered : ∀ as ∈ q.aggregations, ∀ a ∈ as, a.isLowered = true) {output : String}
    (houtput : q.canonical = .ok output) :
    ∃ doc, (Json.parse output >>= Json.readWith Json.Slot.any) = .ok doc ∧
      ∀ names, (Assertion.outputNames names).failure? doc = none ↔ ∀ n ∈ names, q.Labels n := by
  have hsettles : q.encode.Settles := (canonical_eq_ok.1 houtput).2.1
  obtain ⟨doc, hdoc⟩ := ((h.ranged hoffsets).settled hsettles).exists_plain
  refine ⟨doc, ?_, fun names => ?_⟩
  · rw [parse_canonical h.proper houtput, ok_bind, readWith, Slot.any, Slot.fresh, hdoc]
  · rw [Assertion.failure?_outputNames]
    exact forall₂_congr fun n _ => mem_outputsOf h hlowered hsettles hdoc

end Query

namespace Compiler

variable {c : Compiler} {q : Query} {apps : List Uuid} {superOrg : Bool}

/-- The query that a compilation gives out at a stage. -/
def resultAt (c : Compiler) (stage : Stage) (q : Query) (apps : List Uuid) (superOrg : Bool) :
    Except Error Query :=
  match stage with
  | .precompile => (c.precompile q apps superOrg).map fun r => r.1.query
  | .runnable => c.compile q apps superOrg

/-- What is given out for a query is the canonical text of a query that can be written, in which
the convenience aggregators have been replaced. -/
theorem result_of_emit (hq : q.Spellable)
    (hoffsets : ∀ rs ∈ q.relativeIntervals, ∀ r ∈ rs, r.Fits) {stage : Stage} {emission : Emission}
    (h : c.emit stage q apps superOrg = .ok emission) {output : String}
    (houtput : emission.text = .ok output) :
    ∃ out, c.resultAt stage q apps superOrg = .ok out ∧ out.canonical = .ok output ∧
      out.Spellable ∧ (∀ rs ∈ out.relativeIntervals, ∀ r ∈ rs, r.Fits) ∧
      ∀ as ∈ out.aggregations, ∀ a ∈ as, a.isLowered = true := by
  obtain ⟨⟨p, records⟩, hp, hemission⟩ := bind_eq_ok.1 h
  cases hemission
  obtain ⟨lowered, text, hlower, hscope, htext, -⟩ := precompile_ok hp
  obtain ⟨scope, -, hplaced⟩ := scope_eq_ok.1 hscope
  obtain ⟨-, expanded, hexpand, rfl⟩ := lower_ok hlower
  have hspellable := precompile_spellable hq hp
  have hrelative : p.query.relativeIntervals = q.relativeIntervals := by
    rw [← hplaced, (intervals_placed _ _).2]
    exact (expand_ok hexpand).1.relativeIntervals
  have hlowered : ∀ as ∈ p.query.aggregations, ∀ a ∈ as, a.isLowered = true := by
    rw [← hplaced, placed_eq]
    exact Expansion.isLowered_lowerConvenience c.options expanded.aggregations
      expanded.postAggregations
  cases stage with
  | precompile =>
      have hemit : p.emit = .ok output := houtput
      rw [Precompiled.emit_of_canonical hspellable htext, Except.ok.injEq] at hemit
      refine ⟨p.query, ?_, hemit ▸ htext, hspellable, hrelative ▸ hoffsets, hlowered⟩
      rw [resultAt, hp, map_ok]
  | runnable =>
      have hclear : p.query.clearExtensions = p.query := hplaced ▸ clearExtensions_placed _ _
      simp only [emitAt] at houtput
      split at houtput
      · cases houtput
      rename_i out logs hrun
      refine ⟨out, ?_, houtput, ?_⟩
      · simp only [resultAt, compile, hp, ok_bind, hrun, mapError_ok, pure_eq_ok]
      -- What the engine gets differs in its windows at most.
      · rcases (runnableQuery_ok hclear hrun).2 with rfl | ⟨rs, -, rfl⟩
        · exact ⟨hspellable, hrelative ▸ hoffsets, hlowered⟩
        · exact ⟨{ hspellable with }, by simp, hlowered⟩

/-- The document that is given out for a query is read, and the assertion passes exactly on the
names that outputs of the compiled query are written with. So it agrees with the output names exactly
if every output that is written without a name, as a filtered aggregator is that takes the name of
the one inside, has the name of another that is written. -/
theorem outputNames_agree_iff (c : Compiler) (stage : Stage) (apps : List Uuid) (superOrg : Bool)
    {text output : String} {emission : Emission} (hq : Query.parse text = .ok q)
    (h : c.emit stage q apps superOrg = .ok emission) (houtput : emission.text = .ok output) :
    ∃ out doc, c.resultAt stage q apps superOrg = .ok out ∧ out.canonical = .ok output ∧
      (Json.parse output >>= Json.readWith Json.Slot.any) = .ok doc ∧
      (∀ names, (Assertion.outputNames names).failure? doc = none ↔ ∀ n ∈ names, out.Labels n) ∧
      ((∀ names, (Assertion.outputNames names).failure? doc = none ↔ ∀ n ∈ names, out.Outputs n) ↔
        ∀ n, out.Outputs n → out.Labels n) := by
  have hspellable := Query.spellable_of_parse hq
  obtain ⟨j, -, hread⟩ := Query.parse_eq_ok.1 hq
  obtain ⟨out, hout, hcanonical, hfits, hoffsets, hlowered⟩ :=
    result_of_emit hspellable (Query.offsets_of_read hread) h houtput
  obtain ⟨doc, hdoc, hnames⟩ := Query.outputNames_of_canonical hfits hoffsets hlowered hcanonical
  refine ⟨out, doc, hout, hcanonical, hdoc, hnames, ?_⟩
  simp only [hnames]
  constructor
  · intro hagree n hn
    exact (hagree [n]).2 (by simpa using hn) n (by simp)
  · intro hlabels names
    exact forall₂_congr fun n _ => ⟨Query.Labels.outputs, hlabels n⟩

end Compiler

def phoneTallyText : Json := .object [
  ("queryType", .string "timeseries"), ("baseFilters", .string "noFilter"),
  ("intervals", .array [.string "2022-08-01T00:00:00.000Z/2022-09-01T00:00:00.000Z"]),
  ("granularity", .string "all"),
  ("aggregations", .array [
    .object [("type", .string "count"), ("name", .string "events")],
    .object [("type", .string "filtered"),
      ("filter", .object [("type", .string "selector"), ("dimension", .string "os"),
        ("value", .string "ios")]),
      ("aggregator", .object [("type", .string "count"), ("name", .string "phones")])]])]

def phoneTally : Query where
  queryType := .timeseries
  granularity := .all
  baseFilters := some .noFilter
  intervals := some [⟨⟨1659312000000000000⟩, ⟨1661990400000000000⟩⟩]
  aggregations := some [.count "events", .filtered (.selector "os" "ios") (.count "phones") none]

theorem parse_phoneTally : Query.parse phoneTallyText.encode = .ok phoneTally := by
  have hspelled : phoneTallyText.Spelled := by
    simp [phoneTallyText, HasLiterals, Everywhere, EverywhereItems, EverywhereMembers]
  exact Query.parse_eq_ok.2 ⟨_, (Json.parse_encode_eq_ok hspelled).2 ⟨rfl, by decide⟩, rfl⟩

def phoneTallyResult : Query :=
  { phoneTally with baseFilters := none }

def autumn : Compiler where
  now := ⟨1665739800000000000⟩

theorem emit_phoneTally : ∃ emission output,
    autumn.emit .precompile phoneTally [] true = .ok emission ∧ emission.text = .ok output ∧
      autumn.resultAt .precompile phoneTally [] true = .ok phoneTallyResult ∧
      phoneTallyResult.canonical = .ok output := by
  obtain ⟨text, htext⟩ : ∃ text, phoneTallyResult.canonical = .ok text :=
    exists_of_isOk (by decide +kernel)
  have hlower : autumn.lower phoneTally = .ok phoneTally := rfl
  have hscope : autumn.scope phoneTally phoneTally [] true = .ok phoneTallyResult := rfl
  obtain ⟨records, hp⟩ := Compiler.precompile_of_ok hlower hscope htext
  have hspellable := Compiler.precompile_spellable (Query.spellable_of_parse parse_phoneTally) hp
  refine ⟨_, text, Compiler.emit_of_precompile hp .precompile, ?_, ?_, htext⟩
  · exact Precompiled.emit_of_canonical hspellable htext
  · rw [Compiler.resultAt, hp, map_ok]

theorem labels_phoneTally (n : String) : phoneTallyResult.Labels n ↔ "events" = n := by
  have hnormal : Text.normal "events" = "events" := Text.normal_eq_self (by decide)
  simp [Query.Labels, phoneTallyResult, phoneTally, Aggregator.isNamed, Aggregator.outputName,
    hnormal]

theorem outputNames_agree_iff_phoneTally :
    ∃ output doc, phoneTallyResult.canonical = .ok output ∧
      (Json.parse output >>= Json.readWith Json.Slot.any) = .ok doc ∧
      (Assertion.outputNames ["events"]).failure? doc = none := by
  obtain ⟨emission, output, hemission, houtput, hresult, hcanonical⟩ := emit_phoneTally
  obtain ⟨out, doc, hout, -, hdoc, hnames, -⟩ :=
    Compiler.outputNames_agree_iff autumn .precompile [] true parse_phoneTally hemission houtput
  rw [hresult, Except.ok.injEq] at hout
  subst hout
  exact ⟨output, doc, hcanonical, hdoc, (hnames _).2 (by simp [labels_phoneTally])⟩

theorem outputNames_misses_phones :
    ∃ emission output doc, Query.parse phoneTallyText.encode = .ok phoneTally ∧
      autumn.emit .precompile phoneTally [] true = .ok emission ∧ emission.text = .ok output ∧
      (Json.parse output >>= Json.readWith Json.Slot.any) = .ok doc ∧
      autumn.resultAt .precompile phoneTally [] true = .ok phoneTallyResult ∧
      (∃ a ∈ phoneTallyResult.aggregations.getD [], a.outputName = "phones") ∧
      (Assertion.outputNames ["phones"]).failure? doc ≠ none := by
  obtain ⟨emission, output, hemission, houtput, hresult, hcanonical⟩ := emit_phoneTally
  obtain ⟨j, -, hread⟩ := Query.parse_eq_ok.1 parse_phoneTally
  obtain ⟨out, hout, -, hspellable, hoffsets, hlowered⟩ := Compiler.result_of_emit
    (Query.spellable_of_parse parse_phoneTally) (Query.offsets_of_read hread) hemission houtput
  rw [hresult, Except.ok.injEq] at hout
  subst hout
  obtain ⟨doc, hdoc, hnames⟩ :=
    Query.outputNames_of_canonical hspellable hoffsets hlowered hcanonical
  refine ⟨emission, output, doc, parse_phoneTally, hemission, houtput, hdoc, hresult, ?_, ?_⟩
  · exact ⟨.filtered (.selector "os" "ios") (.count "phones") none, by
      simp [phoneTallyResult, phoneTally], rfl⟩
  · rw [ne_eq, hnames]
    simp [labels_phoneTally]

end TenantQuery
