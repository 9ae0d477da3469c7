import TenantQuery.Proofs.Calendar.Relative
import TenantQuery.Proofs.PostAggregator.Verbatim
import TenantQuery.Proofs.Query.Equality

namespace TenantQuery

open Json Outcome

theorem Json.Decodes.codes_string {α β : Type} {name : α → String} {read : Json → Except Error β}
    {a : α} {b : β} (h : Decodes (fun a => string (name a)) read a b)
    (hname : Text.normal (name a) = name a) : Codes (fun a => string (name a)) read a a b :=
  h.codes trivial (by rw [normalForm, hname])

theorem QueryType.decodes (t : QueryType) :
    Decodes .string (Slot.fresh (fun j => (QueryType.read j).map some) []) t.name (some t) := by
  have hname : QueryType.ofName? t.name = some t := by cases t <;> rfl
  exact ⟨rfl, by simp only [Slot.fresh, QueryType.read, readName_string hname, map_ok]⟩

theorem Granularity.decodes {g : Granularity} (h : g ∈ Granularity.known) :
    Decodes Granularity.encode (Slot.optionalFresh Granularity.read []) g (some g) := by
  have hname : Granularity.ofName? g.name = some g := by
    revert g
    decide
  refine ⟨rfl, ?_⟩
  simp only [Slot.optionalFresh, Slot.optional, Slot.fresh, Granularity.encode, Granularity.read,
    readName_string hname, map_ok]

theorem Policy.normal_name (p : Policy) : Text.normal p.name = p.name := by
  cases p <;> exact Text.normal_eq_self (by decide)

theorem Policy.decodes (p : Policy) :
    Decodes (fun p : Policy => .string p.name) (Slot.fresh Policy.read []) p p := by
  have hname : Policy.ofName? p.name = some p := by cases p <;> rfl
  exact ⟨rfl, readName_string hname⟩

theorem Uuid.decodes (u : Uuid) :
    Decodes (fun u : Uuid => .string u.text) (Slot.fresh Query.readUuid []) u u := by
  refine ⟨rfl, ?_⟩
  simp only [Slot.fresh, Query.readUuid, readText, ok_bind, Uuid.parse_text]

theorem Context.fills {c : Context} (h : c.Fits) :
    Fills fields {} (ifSome "timeout" .string c.timeout ++
      (ifSome "priority" ofInt c.priority ++ (ifSome "timestamp" ofInt c.timestamp ++
      (ifSome "cacheValidityDuration" ofInt c.cacheValidityDuration ++
      (ifSome "skipEmptyBuckets" .bool c.skipEmptyBuckets ++
      (ifSome "grandTotal" .bool c.grandTotal ++ (ifSome "useCache" .bool c.useCache ++
      ifSome "populateCache" .bool c.populateCache))))))) c :=
  .ifSame (fun s _ => decodes_text s) rfl
    (.ifSame (fun n hn => decodes_int (h.priority n hn)) rfl
    (.ifSame (fun n hn => decodes_int (h.timestamp n hn)) rfl
    (.ifSame (fun n hn => decodes_int (h.cacheValidityDuration n hn)) rfl
    (.ifSame (fun b _ => decodes_flag b) rfl (.ifSame (fun b _ => decodes_flag b) rfl
    (.ifSame (fun b _ => decodes_flag b) rfl
    (.last (.ifSame (fun b _ => decodes_flag b) rfl .nil))))))))

theorem Context.settles {c : Context} (h : c.Fits) : c.encode.Settles := by
  rw [encode_eq, (fills h).settles_iff sound_fields]
  simp

namespace NamedFilter

def retained (n : NamedFilter) : NamedFilter :=
  ⟨n.filter.map Filter.retained, n.name⟩

theorem sound_fields : Sound fields :=
  .of (by decide) (by simp [fields, Member.independent_of])

variable {n : NamedFilter}

theorem fills (n : NamedFilter) :
    Fills fields {} (ifSome "filter" Filter.encode n.filter ++ [("name", .string n.name)])
      ⟨n.filter.map Filter.encode, n.name⟩ :=
  .rawSome rfl (.of (decodes_text _) .nil)

theorem decodes (h : ∀ f ∈ n.filter, ∀ i ∈ f.windows, i.Dated) :
    Decodes encode (Slot.fresh read []) n n.retained := by
  have hwire := n.fills.readRecord_object sound_fields
  have hfilter : Filter.readOptional (n.filter.map Filter.encode) =
      .ok (n.filter.map Filter.retained) :=
    readOptionalNode_restored fun f hf =>
      ⟨(f.restores (h f hf)).notNull, (f.restores (h f hf)).read_some⟩
  refine ⟨rfl, ?_⟩
  simp only [Slot.fresh, read, encode, hwire, ok_bind, hfilter, pure_eq_ok, retained]

theorem encode_retained (h : ∀ f ∈ n.filter, ∀ i ∈ f.windows, i.Dated) :
    n.retained.encode = n.encode := by
  rw [encode, encode, retained, ifSome_retained fun f hf => (f.restores (h f hf)).again]

theorem writes (h : ∀ f ∈ n.filter, ∀ i ∈ f.windows, i.Dated) :
    Writes fields {} (ifSome "filter" Filter.encode n.filter ++ [("name", .string n.name)])
      (ifSome "filter" Filter.encode (n.filter.map Filter.settled) ++
        [("name", .string (Text.normal n.name))])
      ⟨n.filter.map fun f => f.encode.settled, Text.normal n.name⟩ :=
  .rawSome (fun f hf => ⟨(f.rereads (h f hf)).alike, (f.rereads (h f hf)).notNull⟩) rfl
    (.of (codes_text _) .nil)

theorem codes (h : ∀ f ∈ n.filter, ∀ i ∈ f.windows, i.Dated) :
    Codes encode (Slot.fresh read []) n n.settled n.settled where
  alike := (writes h).alike (List.forall_mem_nil _) ((writes h).names_nodup sound_fields)
  notNull := rfl
  reads hsettles := by
    have hkeys := (writes h).names_nodup sound_fields
    have hwire := readRecord_settled sound_fields (writes h) (List.forall_mem_nil _)
      (List.Perm.refl _) hkeys hsettles
    have hmembers : ∀ m ∈ ifSome "filter" Filter.encode n.filter, m.2.Settles :=
      fun m hm => ((settles_object hkeys).1 hsettles).1 m (List.mem_append_left _ hm)
    have hfilter : Filter.readOptional (n.filter.map fun f => f.encode.settled) =
        .ok (n.filter.map Filter.settled) :=
      Query.readOptional_settled (fun f hf => f.rereads (h f hf)) hmembers
    simp only [List.nil_append] at hwire
    simp only [Slot.fresh, read, encode, hwire, ok_bind, hfilter, pure_eq_ok, settled]

theorem settles (n : NamedFilter) : n.encode.Settles := by
  rw [encode, n.fills.settles_iff sound_fields]
  simpa using fun f _ => f.settles

end NamedFilter

theorem Context.decodes {c : Context} (h : c.Fits) :
    Decodes encode (Slot.record fields {} []) c c :=
  Fills.decodes sound_fields (encode_eq c) (fills h)

theorem Json.mem_of_present {α : Type} {v : Option (List α)} {as : List α} (h : as ∈ present v) :
    as ∈ v := by
  match v with
  | none | some [] => cases h
  | some (_ :: _) => exact h

namespace Query

/-- A query that fits into a document, tables in order and offsets included. -/
structure Stored (q : Query) : Prop extends q.Written where
  ordered : ∀ d ∈ q.dimension, d.Sorted
  allOrdered : ∀ ds ∈ q.dimensions, ∀ d ∈ ds, d.Sorted
  offsets : ∀ rs ∈ q.relativeIntervals, ∀ r ∈ rs, r.Fits

/-- Each relative date of the query is complete. -/
def Complete (q : Query) : Prop :=
  ∀ rs ∈ q.relativeIntervals, ∀ r ∈ rs, r.Complete

theorem keep_offsets :
    Keep fields fun w => ∀ rs ∈ w.relativeIntervals, ∀ r ∈ rs, r.Fits := by
  have hoffsets : Slot.Ensures RelativeInterval.slot fun v => ∀ rs ∈ v, ∀ r ∈ rs, r.Fits :=
    .list (.record RelativeInterval.keep_fields ⟨by decide, by decide⟩)
  unfold fields
  iterate 8 refine .other (fun _ _ h => h) ?_
  refine .of hoffsets (fun _ _ _ h => h) ?_
  iterate 14 refine .other (fun _ _ h => h) ?_
  exact .nil

theorem stored_of_read {j : Json} {q : Query} (h : read j = .ok q) : q.Stored := by
  have hwritten := written_of_read h
  obtain ⟨w, hw, h⟩ := bind_eq_ok.1 h
  have hoffsets := readRecord_keeps keep_offsets (by simp) hw
  split at h
  · split at h
    · obtain ⟨filter, -, h⟩ := bind_eq_ok.1 h
      obtain ⟨aggregations, -, h⟩ := bind_eq_ok.1 h
      obtain ⟨postAggregations, -, h⟩ := bind_eq_ok.1 h
      obtain ⟨steps, -, h⟩ := bind_eq_ok.1 h
      obtain ⟨dimensions, hdimensions, h⟩ := bind_eq_ok.1 h
      obtain ⟨metric, -, h⟩ := bind_eq_ok.1 h
      obtain ⟨dimension, hdimension, h⟩ := bind_eq_ok.1 h
      cases h
      exact ⟨hwritten,
        readOptionalNode_ensures Dimension.sorted_of_read (mapError_eq_ok.1 hdimension),
        readNodes_ensures Dimension.sorted_of_read (mapError_eq_ok.1 hdimensions), hoffsets⟩
    · cases h
  · cases h

def retained (q : Query) : Query :=
  { q with
    filter := q.filter.map Filter.retained
    intervals := (present q.intervals).map (·.map Interval.settled)
    relativeIntervals := present q.relativeIntervals
    aggregations := (present q.aggregations).map (·.map Aggregator.retained)
    postAggregations := (present q.postAggregations).map (·.map PostAggregator.retained)
    dimensions := present q.dimensions
    steps := (present q.steps).map (·.map Filter.retained)
    stepNames := present q.stepNames
    sample1 := q.sample1.map NamedFilter.retained
    sample2 := q.sample2.map NamedFilter.retained
    successCriterion := q.successCriterion.map NamedFilter.retained }

/-- The members of a query in the order of the fields. -/
def members (q : Query) : List (String × Json) :=
  ("queryType", .string q.queryType.name) :: (ifText "dataSource" q.dataSource ++
    (ifSome "descending" .bool q.descending ++
    (ifSome "baseFilters" (fun p => .string p.name) q.baseFilters ++
    (ifSome "testMode" .bool q.testMode ++ (ifSome "appID" (fun u => .string u.text) q.appID ++
    (ifSome "filter" Filter.encode q.filter ++ (ifAny "intervals" Interval.encode q.intervals ++
    (ifAny "relativeIntervals" RelativeInterval.encode q.relativeIntervals ++
    ("granularity", q.granularity.encode) ::
    (ifAny "aggregations" Aggregator.encode q.aggregations ++
    (ifAny "postAggregations" PostAggregator.encode q.postAggregations ++
    (ifSome "limit" ofInt q.limit ++ (ifSome "context" Context.encode q.context ++
    (ifSome "threshold" ofInt q.threshold ++ (ifSome "metric" Metric.encode q.metric ++
    (ifSome "dimension" Dimension.encode q.dimension ++
    (ifAny "dimensions" Dimension.encode q.dimensions ++
    (ifAny "steps" Filter.encode q.steps ++ (ifAny "stepNames" .string q.stepNames ++
    (ifSome "sample1" NamedFilter.encode q.sample1 ++
    (ifSome "sample2" NamedFilter.encode q.sample2 ++
    ifSome "successCriterion" NamedFilter.encode q.successCriterion))))))))))))))))))))

theorem encode_eq_members (q : Query) : q.encode = .object q.members := by
  simp only [encode, members, List.append_assoc, List.cons_append, List.nil_append]

/-- What is read of a query before its nodes are. -/
def wire (q : Query) : Wire where
  queryType := some q.queryType
  dataSource := q.dataSource
  descending := q.descending
  baseFilters := q.baseFilters
  testMode := q.testMode
  appID := q.appID
  filter := q.filter.map Filter.encode
  intervals := (present q.intervals).map (·.map Interval.settled)
  relativeIntervals := present q.relativeIntervals
  granularity := some q.granularity
  aggregations := (present q.aggregations).map (·.map Aggregator.encode)
  postAggregations := (present q.postAggregations).map (·.map PostAggregator.encode)
  limit := q.limit
  context := q.context
  threshold := q.threshold
  metric := q.metric.map Metric.encode
  dimension := q.dimension.map Dimension.encode
  dimensions := (present q.dimensions).map (·.map Dimension.encode)
  steps := (present q.steps).map (·.map Filter.encode)
  stepNames := present q.stepNames
  sample1 := q.sample1.map NamedFilter.retained
  sample2 := q.sample2.map NamedFilter.retained
  successCriterion := q.successCriterion.map NamedFilter.retained

section Verbatim

variable {q : Query}

theorem Stored.fills (h : q.Stored) (hcomplete : q.Complete) :
    Fills fields {} q.members q.wire := by
  refine .of (QueryType.decodes _) (.ifText rfl (.ifSame (fun b _ => decodes_flag b) rfl ?_))
  refine .ifSame (fun p _ => p.decodes) rfl (.ifSame (fun b _ => decodes_flag b) rfl ?_)
  refine .ifSame (fun u _ => u.decodes) rfl (.rawSome rfl ?_)
  refine .ifAny (fun is his i hi => (Interval.decodes (h.intervals is his i hi)).reads) rfl ?_
  refine .ifAnySame (fun rs hrs r hr =>
    (RelativeInterval.decodes (h.offsets rs hrs r hr) (hcomplete rs hrs r hr)).reads) rfl ?_
  refine .of (Granularity.decodes h.granularity) (.ifAnyRaw rfl (.ifAnyRaw rfl ?_))
  refine .ifSame (fun n hn => decodes_int (h.limit n hn)) rfl ?_
  refine .ifSame (fun c hc => Context.decodes (h.context c hc)) rfl ?_
  refine .ifSame (fun n hn => decodes_int (h.threshold n hn)) rfl ?_
  refine .rawSome rfl (.rawSome rfl (.ifAnyRaw rfl (.ifAnyRaw rfl ?_)))
  refine .ifAnySame (fun _ _ s _ => (decodes_text s).reads) rfl ?_
  refine .ifSome (fun n hn => NamedFilter.decodes (h.sample1 n hn)) rfl ?_
  refine .ifSome (fun n hn => NamedFilter.decodes (h.sample2 n hn)) rfl ?_
  exact .last (.ifSome (fun n hn => NamedFilter.decodes (h.successCriterion n hn)) rfl .nil)

theorem Stored.read_encode (h : q.Stored) (hcomplete : q.Complete) :
    read q.encode = .ok q.retained := by
  have hwire : readRecord fields {} q.encode = .ok q.wire := by
    rw [encode_eq_members]
    exact (h.fills hcomplete).readRecord_object sound_fields
  have hfilter : Filter.readOptional q.wire.filter = .ok q.retained.filter :=
    readOptionalNode_restored fun f hf =>
      ⟨(f.restores (h.filter f hf)).notNull, (f.restores (h.filter f hf)).read_some⟩
  have haggregations : readNodes Aggregator.read q.wire.aggregations =
      .ok q.retained.aggregations := by
    refine readNodes_map_encode fun as has a ha => ?_
    obtain ⟨hfits, hdated⟩ := h.aggregations as (mem_of_present has) a ha
    exact (a.restores hfits hdated).read_some
  have hpost : readNodes PostAggregator.read q.wire.postAggregations =
      .ok q.retained.postAggregations :=
    readNodes_map_encode fun ps hps p hp =>
      (p.restores (h.postAggregations ps (mem_of_present hps) p hp)).read_some
  have hsteps : readNodes Filter.read q.wire.steps = .ok q.retained.steps :=
    readNodes_map_encode fun fs hfs f hf =>
      (f.restores (h.steps fs (mem_of_present hfs) f hf)).read_some
  have hdimensions : readNodes Dimension.read q.wire.dimensions = .ok q.retained.dimensions :=
    readNodes_same fun ds hds d hd =>
      (Dimension.restores (h.allOrdered ds (mem_of_present hds) d hd)).read_some
  have hmetric : readOptionalNode Metric.read q.wire.metric = .ok q.retained.metric :=
    readOptionalNode_same fun m _ => ⟨m.restores.notNull, m.restores.read_some⟩
  have hdimension : readOptionalNode Dimension.read q.wire.dimension = .ok q.retained.dimension := by
    refine readOptionalNode_same fun d hd => ?_
    have hrestores := Dimension.restores (h.ordered d hd)
    exact ⟨hrestores.notNull, hrestores.read_some⟩
  simp only [read, hwire, ok_bind, inMember, hfilter, haggregations, hpost, hsteps, hdimensions,
    hmetric, hdimension, mapError_ok]
  rfl

theorem Stored.encode_retained (h : q.Stored) : q.retained.encode = q.encode := by
  have hnamed {name : String} {sample : Option NamedFilter}
      (hsample : ∀ n ∈ sample, ∀ f ∈ n.filter, ∀ i ∈ f.windows, i.Dated) :
      ifSome name NamedFilter.encode (sample.map NamedFilter.retained) =
        ifSome name NamedFilter.encode sample :=
    ifSome_retained fun n hn => NamedFilter.encode_retained (hsample n hn)
  have hfilter : ifSome "filter" Filter.encode (q.filter.map Filter.retained) =
      ifSome "filter" Filter.encode q.filter :=
    ifSome_retained fun f hf => (f.restores (h.filter f hf)).again
  have hintervals : ifAny "intervals" Interval.encode ((present q.intervals).map
      (·.map Interval.settled)) = ifAny "intervals" Interval.encode q.intervals :=
    ifAny_retained fun _ _ i _ => i.encode_settled
  have haggregations : ifAny "aggregations" Aggregator.encode ((present q.aggregations).map
      (·.map Aggregator.retained)) = ifAny "aggregations" Aggregator.encode q.aggregations := by
    refine ifAny_retained fun as has a ha => ?_
    obtain ⟨hfits, hdated⟩ := h.aggregations as has a ha
    exact (a.restores hfits hdated).again
  have hpost : ifAny "postAggregations" PostAggregator.encode ((present q.postAggregations).map
      (·.map PostAggregator.retained)) =
        ifAny "postAggregations" PostAggregator.encode q.postAggregations :=
    ifAny_retained fun ps hps p hp => (p.restores (h.postAggregations ps hps p hp)).again
  have hsteps : ifAny "steps" Filter.encode ((present q.steps).map (·.map Filter.retained)) =
      ifAny "steps" Filter.encode q.steps :=
    ifAny_retained fun fs hfs f hf => (f.restores (h.steps fs hfs f hf)).again
  simp only [encode, retained, ifAny_present, hfilter, hintervals, haggregations, hpost, hsteps,
    hnamed h.sample1, hnamed h.sample2, hnamed h.successCriterion]

theorem members_eq_filled (q : Query) : q.members = filled q.places := by
  have hobject := q.encode_eq_members.symm.trans q.encode_eq_places
  exact Json.object.inj hobject

theorem mem_fields_relative : Member.of "relativeIntervals" RelativeInterval.slot
    ({ · with relativeIntervals := · }) ∈ fields := by
  unfold fields
  iterate 8 refine List.mem_cons_of_mem _ ?_
  exact List.mem_cons_self

theorem complete_of_slot {rs : List RelativeInterval}
    {v : Option (List RelativeInterval)}
    (h : RelativeInterval.slot [] (.array (rs.map RelativeInterval.encode)) = .ok v) :
    ∀ r ∈ rs, r.Complete := by
  intro r hr
  obtain ⟨r', hr'⟩ := slot_of_list h _ (List.mem_map_of_mem hr)
  exact RelativeInterval.complete_of_read hr'

theorem mem_members_relative {rs : List RelativeInterval} (hrs : rs ∈ q.relativeIntervals)
    {r : RelativeInterval} (hr : r ∈ rs) :
    ("relativeIntervals", .array (rs.map RelativeInterval.encode)) ∈ q.members := by
  obtain ⟨r', rs, rfl⟩ := List.exists_cons_of_ne_nil (List.ne_nil_of_mem hr)
  simp [members, show q.relativeIntervals = some (r' :: rs) from hrs, ifAny]

theorem name_of_mem_members {m : String × Json} (hm : m ∈ q.members) :
    Text.normal m.1 = m.1 ∧ Exact fields m.1 := by
  rw [members_eq_filled] at hm
  obtain ⟨p, hp, hname, -⟩ := mem_filled.1 hm
  have hfields : fields.map (·.name) = q.places.map (·.1) := rfl
  have hmem : m.1 ∈ fields.map (·.name) := by
    rw [hfields, ← hname]
    exact List.mem_map_of_mem hp
  obtain ⟨f, hf, hplain⟩ := List.mem_map.1 hmem
  exact ⟨by rw [← hplain]; exact Text.normal_eq_self (sound_fields.plain f hf),
    sound_fields.exact hmem⟩

theorem Spellable.nodup_members (h : q.Spellable) : (q.members.map (·.1)).Nodup := by
  rw [members_eq_filled]
  exact h.orderly.nodup_filled

theorem readRecord_of_read {j : Json} {q' : Query} (h : read j = .ok q') :
    ∃ w, readRecord fields {} j = .ok w := by
  obtain ⟨w, hw, -⟩ := bind_eq_ok.1 h
  exact ⟨w, hw⟩

theorem Written.complete_of_read (h : q.Written) {q' : Query} (hread : read q.encode = .ok q') :
    q.Complete := by
  rw [encode_eq_members] at hread
  obtain ⟨w, hw⟩ := readRecord_of_read hread
  intro rs hrs r hr
  obtain ⟨v, hv⟩ := slot_of_readRecord sound_fields h.toFits.spellable.nodup_members
    (fun m hm => (name_of_mem_members hm).2) hw mem_fields_relative (mem_members_relative hrs hr)
  exact complete_of_slot hv r hr

theorem Written.complete_of_read_settled (h : q.Written) (hsettles : q.encode.Settles)
    {q' : Query} (hread : read q.encode.settled = .ok q') : q.Complete := by
  rw [encode_eq_members] at hread hsettles
  obtain ⟨w, hw⟩ := readRecord_of_read hread
  intro rs hrs r hr
  obtain ⟨v, hv⟩ := slot_of_readRecord_settled sound_fields h.toFits.spellable.nodup_members
    (fun m hm => name_of_mem_members hm) hsettles hw mem_fields_relative
    (mem_members_relative hrs hr) rfl
  have hform : (array (rs.map RelativeInterval.encode)).normalForm =
      .ok (array (rs.map RelativeInterval.encode)) := by
    refine normalForm_array_eq_ok.2 ⟨?_, ?_⟩
    · simpa using fun r _ => ⟨_, r.normalForm_encode⟩
    · rw [List.map_map]
      refine congrArg array (List.map_congr_left fun r _ => ?_)
      exact (Json.settled_eq r.normalForm_encode).symm
  rw [Json.settled_eq hform] at hv
  exact complete_of_slot hv r hr

end Verbatim

def settledWire (q : Query) : Wire :=
  { q.plainWire with
    baseFilters := q.baseFilters
    testMode := q.testMode
    appID := q.appID
    relativeIntervals := present q.relativeIntervals
    steps := (present q.steps).map (·.map fun f => f.encode.settled)
    stepNames := (present q.stepNames).map (·.map Text.normal)
    sample1 := q.sample1.map NamedFilter.settled
    sample2 := q.sample2.map NamedFilter.settled
    successCriterion := q.successCriterion.map NamedFilter.settled }

section Settling

variable {q : Query}

theorem Stored.writes (h : q.Stored) (hcomplete : q.Complete) :
    Writes fields {} q.members q.settled.members q.settledWire := by
  have hfilter := h.filter_rereads
  have haggregations := h.aggregation_rereads
  have hpost := h.postAggregation_rereads
  have hdimension := h.dimension_rereads
  have hdimensions := h.dimensions_rereads
  have hsteps (fs) (hfs : fs ∈ q.steps) (f) (hf : f ∈ fs) := f.rereads (h.steps fs hfs f hf)
  refine .of (QueryType.codes _) (.ifText rfl (.ifSame (fun b _ => codes_flag b) rfl ?_))
  refine .ifSame (fun p _ => p.decodes.codes_string p.normal_name) rfl ?_
  refine .ifSame (fun b _ => codes_flag b) rfl ?_
  refine .ifSame (fun u _ => u.decodes.codes_string u.normal_text) rfl ?_
  refine .rawSome (fun f hf => ⟨(hfilter f hf).alike, (hfilter f hf).notNull⟩) rfl ?_
  refine .ifAny (fun is his i hi => Interval.codes (h.intervals is his i hi)) rfl ?_
  refine .ifAnySame (fun rs hrs r hr =>
    RelativeInterval.codes (h.offsets rs hrs r hr) (hcomplete rs hrs r hr)) rfl ?_
  refine .of (Granularity.codes h.granularity) ?_
  refine .ifAny (fun as has a ha =>
    codes_raw (haggregations as has a ha).alike (haggregations as has a ha).notNull) rfl ?_
  refine .ifAny (fun ps hps p hp =>
    codes_raw (hpost ps hps p hp).alike (hpost ps hps p hp).notNull) rfl ?_
  refine .ifSame (fun n hn => codes_int (h.limit n hn)) rfl ?_
  refine .ifSome (fun c hc => Context.codes (h.context c hc)) rfl ?_
  refine .ifSame (fun n hn => codes_int (h.threshold n hn)) rfl ?_
  refine .rawSome (fun m _ => ⟨m.rereads.alike, m.rereads.notNull⟩) rfl ?_
  refine .rawSome (fun d hd => ⟨(hdimension d hd).alike, (hdimension d hd).notNull⟩) rfl ?_
  refine .ifAny (fun ds hds d hd =>
    codes_raw (hdimensions ds hds d hd).alike (hdimensions ds hds d hd).notNull) rfl ?_
  refine .ifAny (fun fs hfs f hf =>
    codes_raw (hsteps fs hfs f hf).alike (hsteps fs hfs f hf).notNull) rfl ?_
  refine .ifAny (fun _ _ s _ => codes_text s) rfl ?_
  refine .ifSome (fun n hn => NamedFilter.codes (h.sample1 n hn)) rfl ?_
  refine .ifSome (fun n hn => NamedFilter.codes (h.sample2 n hn)) rfl ?_
  exact .last (.ifSome (fun n hn => NamedFilter.codes (h.successCriterion n hn)) rfl .nil)

theorem Stored.read_settled (h : q.Stored) (hcomplete : q.Complete) (hsettles : q.encode.Settles) :
    read q.encode.settled = .ok q.settled := by
  have hwrites := h.writes hcomplete
  have hkeys := hwrites.names_nodup sound_fields
  have hmember {m : String × Json} (hm : m ∈ q.members) : m.2.Settles := by
    rw [encode_eq_members] at hsettles
    exact ((settles_object hkeys).1 hsettles).1 m hm
  have hwire : readRecord fields {} q.encode.settled = .ok q.settledWire := by
    rw [encode_eq_members] at hsettles ⊢
    exact readRecord_settled sound_fields hwrites (List.forall_mem_nil _) (List.Perm.refl _)
      hkeys hsettles
  have hfilter : Filter.readOptional q.settledWire.filter = .ok q.settled.filter :=
    readOptional_settled h.filter_rereads
      fun m (hm : m ∈ ifSome "filter" Filter.encode q.filter) => hmember (by simp [members, hm])
  have haggregations : readNodes Aggregator.read q.settledWire.aggregations =
      .ok q.settled.aggregations :=
    readNodes_present h.aggregation_rereads
      fun m (hm : m ∈ ifAny "aggregations" Aggregator.encode q.aggregations) =>
        hmember (by simp [members, hm])
  have hpost : readNodes PostAggregator.read q.settledWire.postAggregations =
      .ok q.settled.postAggregations :=
    readNodes_present h.postAggregation_rereads
      fun m (hm : m ∈ ifAny "postAggregations" PostAggregator.encode q.postAggregations) =>
        hmember (by simp [members, hm])
  have hsteps : readNodes Filter.read q.settledWire.steps = .ok q.settled.steps :=
    readNodes_present (fun fs hfs f hf => f.rereads (h.steps fs hfs f hf))
      fun m (hm : m ∈ ifAny "steps" Filter.encode q.steps) => hmember (by simp [members, hm])
  have hdimensions : readNodes Dimension.read q.settledWire.dimensions = .ok q.settled.dimensions :=
    readNodes_present h.dimensions_rereads
      fun m (hm : m ∈ ifAny "dimensions" Dimension.encode q.dimensions) =>
        hmember (by simp [members, hm])
  have hmetric : readOptionalNode Metric.read q.settledWire.metric = .ok q.settled.metric :=
    readOptional_settled (fun m _ => m.rereads)
      fun m (hm : m ∈ ifSome "metric" Metric.encode q.metric) => hmember (by simp [members, hm])
  have hdimension : readOptionalNode Dimension.read q.settledWire.dimension =
      .ok q.settled.dimension :=
    readOptional_settled h.dimension_rereads
      fun m (hm : m ∈ ifSome "dimension" Dimension.encode q.dimension) =>
        hmember (by simp [members, hm])
  simp only [read, hwire, ok_bind, inMember, hfilter, haggregations, hpost, hsteps, hdimensions,
    hmetric, hdimension, mapError_ok]
  rfl

theorem Stored.alike (h : q.Stored) (hcomplete : q.Complete) :
    Alike q.encode q.settled.encode := by
  have hwrites := h.writes hcomplete
  rw [encode_eq_members, encode_eq_members]
  exact hwrites.alike (List.forall_mem_nil _) (hwrites.names_nodup sound_fields)

/-- Keys of the tables in the dimensions stay apart where they are composed. -/
structure Distinct (q : Query) : Prop where
  dimension : ∀ d ∈ q.dimension, d.Distinct
  dimensions : ∀ ds ∈ q.dimensions, ∀ d ∈ ds, d.Distinct

/-- A query has a normal form if and only if the keys of its tables stay apart. -/
theorem Spellable.settles_iff (h : q.Spellable) : q.encode.Settles ↔ q.Distinct := by
  have hnamed (name : String) (sample : Option NamedFilter) :
      AllSettle (ifSome name NamedFilter.encode sample) :=
    allSettle_ifSome.2 fun n _ => n.settles
  have hdimension : AllSettle (ifSome "dimension" Dimension.encode q.dimension) ↔
      ∀ d ∈ q.dimension, d.Distinct := by
    rw [allSettle_ifSome]
    exact forall₂_congr fun d hd => Dimension.settles_iff (h.dimension d hd)
  have hdimensions : AllSettle (ifAny "dimensions" Dimension.encode q.dimensions) ↔
      ∀ ds ∈ q.dimensions, ∀ d ∈ ds, d.Distinct := by
    rw [allSettle_ifAny]
    exact forall₄_congr fun ds hds d hd => Dimension.settles_iff (h.dimensions ds hds d hd)
  have hfilter : AllSettle (ifSome "filter" Filter.encode q.filter) :=
    allSettle_ifSome.2 fun f _ => f.settles
  have hintervals : AllSettle (ifAny "intervals" Interval.encode q.intervals) :=
    allSettle_ifAny.2 fun _ _ i _ => settles_string i.wire
  have hrelative : AllSettle (ifAny "relativeIntervals" RelativeInterval.encode
      q.relativeIntervals) :=
    allSettle_ifAny.2 fun _ _ r _ => ⟨_, r.normalForm_encode⟩
  have haggregations : AllSettle (ifAny "aggregations" Aggregator.encode q.aggregations) :=
    allSettle_ifAny.2 fun as has a ha => a.settles (h.aggregations as has a ha)
  have hpost : AllSettle (ifAny "postAggregations" PostAggregator.encode q.postAggregations) :=
    allSettle_ifAny.2 fun ps hps p hp => p.settles (h.postAggregations ps hps p hp)
  have hcontext : AllSettle (ifSome "context" Context.encode q.context) :=
    allSettle_ifSome.2 fun c hc => Context.settles (h.context c hc)
  have hmetric : AllSettle (ifSome "metric" Metric.encode q.metric) :=
    allSettle_ifSome.2 fun m _ => m.settles
  have hsteps : AllSettle (ifAny "steps" Filter.encode q.steps) :=
    allSettle_ifAny.2 fun _ _ f _ => f.settles
  have hflag (name : String) (v : Option Bool) : AllSettle (ifSome name .bool v) := by simp
  have hint (name : String) (v : Option Int) : AllSettle (ifSome name ofInt v) := by simp
  have htexts {α : Type} (name : String) (text : α → String) (v : Option α) :
      AllSettle (ifSome name (fun a => .string (text a)) v) := by simp
  have hnames : AllSettle (ifAny "stepNames" .string q.stepNames) := by simp
  have hplain (m : String × Json) (hm : m ∈ q.members) := (name_of_mem_members hm).1
  rw [encode_eq_members, settles_of_plain h.nodup_members hplain]
  simp only [members, allSettle_cons, allSettle_append, settles_string, allSettle_ifText, hflag,
    htexts, hfilter, hintervals, hrelative, Granularity.encode, haggregations, hpost, hint,
    hcontext, hmetric, hdimension, hdimensions, hsteps, hnames, hnamed, true_and, and_true]
  constructor
  · rintro ⟨hone, hall⟩
    exact ⟨hone, hall⟩
  · rintro ⟨hone, hall⟩
    exact ⟨hone, hall⟩

/-- A query has a canonical form unless it nests too deeply or keys of its tables fall together. -/
theorem Spellable.canonical_iff (h : q.Spellable) :
    (∃ c, q.canonical = .ok c) ↔ q.encode.depth ≤ maxDepth ∧ q.Distinct := by
  simp only [canonical, canonical_eq_ok, h.settles_iff]
  constructor
  · rintro ⟨c, hdepth, hdistinct, -⟩
    exact ⟨hdepth, hdistinct⟩
  · rintro ⟨hdepth, hdistinct⟩
    exact ⟨_, hdepth, hdistinct, rfl⟩

end Settling

theorem parse_eq_ok {text : String} {q : Query} :
    parse text = .ok q ↔ ∃ j, Json.parse text = .ok j ∧ read j = .ok q :=
  bind_eq_ok

theorem spellable_of_parse {text : String} {q : Query} (h : parse text = .ok q) :
    q.Spellable := by
  obtain ⟨j, -, hread⟩ := parse_eq_ok.1 h
  exact (written_of_read hread).toFits.spellable

section Texts

variable {q q' : Query}

theorem Written.proper (h : q.Written) : q.encode.Proper :=
  h.toFits.spellable.proper

theorem Stored.parse_encode_eq_ok (h : q.Stored) : parse q.encode.encode = .ok q' ↔
    q' = q.retained ∧ q.encode.depth ≤ maxDepth ∧ q.Complete := by
  simp only [parse_eq_ok, Json.parse_encode_eq_ok h.proper.spelled]
  constructor
  · rintro ⟨j, ⟨rfl, hdepth⟩, hread⟩
    have hcomplete := h.complete_of_read hread
    rw [h.read_encode hcomplete] at hread
    exact ⟨(Except.ok.inj hread).symm, hdepth, hcomplete⟩
  · rintro ⟨rfl, hdepth, hcomplete⟩
    exact ⟨_, ⟨rfl, hdepth⟩, h.read_encode hcomplete⟩

theorem Stored.parse_canonical_eq_ok (h : q.Stored) {c : String} (hc : q.canonical = .ok c) :
    parse c = .ok q' ↔ q' = q.settled ∧ q.Complete := by
  have hsettles : q.encode.Settles := (canonical_eq_ok.1 hc).2.1
  simp only [parse_eq_ok, parse_canonical h.proper hc, Except.ok.injEq, exists_eq_left']
  constructor
  · intro hread
    have hcomplete := h.complete_of_read_settled hsettles hread
    rw [h.read_settled hcomplete hsettles] at hread
    exact ⟨(Except.ok.inj hread).symm, hcomplete⟩
  · rintro ⟨rfl, hcomplete⟩
    exact h.read_settled hcomplete hsettles

theorem Stored.canonical_iff (h : q.Stored) :
    (∃ c, q.canonical = .ok c) ↔ q.encode.depth ≤ maxDepth ∧ q.Distinct :=
  h.toFits.spellable.canonical_iff

end Texts

/-- Documents are read back. Of any query that is read from a text: its own text is read if and only
if it nests no deeper than texts may and each of its relative dates is complete. What is read from it is written as the same text again. The query has
a canonical form unless it nests too deeply or keys of its tables fall together. This is read if
and only if the relative dates are complete, and what is read has the same hash. -/
theorem documents_readBack {text : String} {q : Query} (h : parse text = .ok q) :
    (∀ q', parse q.encode.encode = .ok q' ↔
      q' = q.retained ∧ q.encode.depth ≤ maxDepth ∧ q.Complete) ∧
    q.retained.encode = q.encode ∧
    ((∃ c, q.canonical = .ok c) ↔ q.encode.depth ≤ maxDepth ∧ q.Distinct) ∧
    ∀ c, q.canonical = .ok c → (∀ q', parse c = .ok q' ↔ q' = q.settled ∧ q.Complete) ∧
      (q.Complete → q.settled.canonical = .ok c ∧ q.settled.hash = q.hash) := by
  obtain ⟨j, -, hj⟩ := parse_eq_ok.1 h
  have hstored := stored_of_read hj
  refine ⟨fun q' => hstored.parse_encode_eq_ok, hstored.encode_retained, hstored.canonical_iff,
    fun c hc => ⟨fun q' => hstored.parse_canonical_eq_ok hc, fun hcomplete => ?_⟩⟩
  have hsame : q.settled.encode.canonical = .ok c := (hstored.alike hcomplete).canonical_eq hc
  have hc : q.encode.canonical = .ok c := hc
  exact ⟨hsame, by rw [hash, hash, Json.hash, Json.hash, hsame, hc]⟩

def pastWeek : Query where
  queryType := .timeseries
  granularity := .day
  relativeIntervals := some [⟨⟨.day, -7, .beginning⟩, ⟨.day, -1, .ending⟩⟩]

theorem stored_pastWeek : pastWeek.Stored :=
  stored_of_read (show read pastWeek.encode = .ok pastWeek by rfl)

theorem documents_readBack_pastWeek :
    parse pastWeek.encode.encode = .ok pastWeek ∧ pastWeek.Complete ∧
      pastWeek.retained.encode = pastWeek.encode ∧
      ∃ c, pastWeek.canonical = .ok c ∧ parse c = .ok pastWeek.settled ∧
        pastWeek.settled.hash = pastWeek.hash := by
  have hcomplete : pastWeek.Complete := by
    rintro rs ⟨⟩ r hr
    rw [List.mem_singleton.1 hr]
    exact ⟨⟨by decide, by decide⟩, ⟨by decide, by decide⟩⟩
  have hparse : parse pastWeek.encode.encode = .ok pastWeek :=
    stored_pastWeek.parse_encode_eq_ok.2 ⟨rfl, by decide, hcomplete⟩
  obtain ⟨-, hagain, hcanonical, hback⟩ := documents_readBack hparse
  obtain ⟨c, hc⟩ := hcanonical.2 ⟨by decide, by simp [pastWeek], by simp [pastWeek]⟩
  obtain ⟨hread, hhash⟩ := hback c hc
  exact ⟨hparse, hcomplete, hagain, c, hc, (hread _).2 ⟨rfl, hcomplete⟩, (hhash hcomplete).2⟩

def hazyText : Json :=
  .object [("queryType", .string "timeseries"), ("granularity", .string "all"),
    ("relativeIntervals", .array [.object []])]

def hazy : Query where
  queryType := .timeseries
  granularity := .all
  relativeIntervals := some [{}]

theorem parse_hazyText :
    parse hazyText.encode = .ok hazy ∧ (∀ q, parse hazy.encode.encode ≠ .ok q) ∧
      ∃ c, hazy.canonical = .ok c ∧ ∀ q, parse c ≠ .ok q := by
  have hread : read hazyText = .ok hazy := rfl
  have hspelled : hazyText.Spelled := by
    simp [hazyText, HasLiterals, Everywhere, EverywhereItems, EverywhereMembers]
  have hparse : parse hazyText.encode = .ok hazy :=
    parse_eq_ok.2 ⟨_, (Json.parse_encode_eq_ok hspelled).2 ⟨rfl, by decide⟩, hread⟩
  have hstored := stored_of_read hread
  have hincomplete : ¬ hazy.Complete := by
    intro h
    exact (h _ rfl _ List.mem_cons_self).start.component rfl
  obtain ⟨c, hc⟩ := hstored.canonical_iff.2 ⟨by decide, by simp [hazy], by simp [hazy]⟩
  refine ⟨hparse, fun q hq => ?_, c, hc, fun q hq => ?_⟩
  · exact hincomplete (hstored.parse_encode_eq_ok.1 hq).2.2
  · exact hincomplete ((hstored.parse_canonical_eq_ok hc).1 hq).2

end Query

end TenantQuery
