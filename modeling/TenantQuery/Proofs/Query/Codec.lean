import TenantQuery.Query.Basic
import TenantQuery.Proofs.Dimension.Codec
import TenantQuery.Proofs.PostAggregator.Codec

namespace TenantQuery

open Json Outcome

namespace Context

structure Fits (c : Context) : Prop where
  priority : ∀ n ∈ c.priority, Word.Holds n
  timestamp : ∀ n ∈ c.timestamp, Word.Holds n
  cacheValidityDuration : ∀ n ∈ c.cacheValidityDuration, Word.Holds n

def settled (c : Context) : Context :=
  { c with timeout := c.timeout.map Text.normal }

theorem sound_fields : Sound fields :=
  .of (by decide) (by simp [fields, Member.independent_of])

theorem encode_eq (c : Context) : c.encode = .object (ifSome "timeout" .string c.timeout ++
    (ifSome "priority" ofInt c.priority ++ (ifSome "timestamp" ofInt c.timestamp ++
    (ifSome "cacheValidityDuration" ofInt c.cacheValidityDuration ++
    (ifSome "skipEmptyBuckets" .bool c.skipEmptyBuckets ++
    (ifSome "grandTotal" .bool c.grandTotal ++ (ifSome "useCache" .bool c.useCache ++
    ifSome "populateCache" .bool c.populateCache))))))) := by
  simp only [encode, List.append_assoc]

theorem codes {c : Context} (h : c.Fits) :
    Codes encode (Slot.record fields {} []) c c.settled c.settled :=
  Writes.codes sound_fields (encode_eq _) (encode_eq _)
    (.ifSome (fun s _ => codes_text s) rfl
    (.ifSame (fun n hn => codes_int (h.priority n hn)) rfl
    (.ifSame (fun n hn => codes_int (h.timestamp n hn)) rfl
    (.ifSame (fun n hn => codes_int (h.cacheValidityDuration n hn)) rfl
    (.ifSame (fun b _ => codes_flag b) rfl (.ifSame (fun b _ => codes_flag b) rfl
    (.ifSame (fun b _ => codes_flag b) rfl
    (.last (.ifSame (fun b _ => codes_flag b) rfl .nil)))))))))

end Context

theorem Granularity.codes_fresh {g : Granularity} (h : g ∈ Granularity.known) :
    Codes Granularity.encode (Slot.fresh Granularity.read []) g g g := by
  have hplain : Text.normal g.name = g.name ∧ Granularity.ofName? g.name = some g := by
    simp only [known, List.mem_cons, List.not_mem_nil, or_false] at h
    rcases h with rfl | rfl | rfl | rfl | rfl | rfl | rfl | rfl | rfl | rfl | rfl | rfl <;>
      exact ⟨Text.normal_eq_self (by decide), rfl⟩
  exact codes_name hplain.1 hplain.2

theorem Granularity.codes {g : Granularity} (h : g ∈ Granularity.known) :
    Codes Granularity.encode (Slot.optionalFresh Granularity.read []) g g (some g) :=
  (codes_fresh h).optional

theorem QueryType.codes (t : QueryType) :
    Codes .string (Slot.fresh (fun j => (QueryType.read j).map some) []) t.name t.name (some t) := by
  have hplain : Text.normal t.name = t.name ∧ QueryType.ofName? t.name = some t := by
    cases t <;> exact ⟨Text.normal_eq_self (by decide), rfl⟩
  obtain ⟨halike, hnull, -⟩ := codes_composed hplain.1
  refine ⟨halike, hnull, fun _ => ?_⟩
  rw [settled_string, hplain.1]
  simp only [Slot.fresh, QueryType.read, readName_string hplain.2, map_ok]

namespace NamedFilter

def settled (n : NamedFilter) : NamedFilter :=
  ⟨n.filter.map Filter.settled, Text.normal n.name⟩

end NamedFilter

namespace Query

structure Fits (q : Query) : Prop where
  filter : ∀ f ∈ q.filter, ∀ i ∈ f.windows, i.Dated
  intervals : ∀ is ∈ q.intervals, ∀ i ∈ is, i.Dated
  granularity : q.granularity ∈ Granularity.known
  aggregations : ∀ as ∈ q.aggregations, ∀ a ∈ as, a.Fits ∧ ∀ i ∈ a.windows, i.Dated
  postAggregations : ∀ ps ∈ q.postAggregations, ∀ p ∈ ps, p.Fits
  limit : ∀ n ∈ q.limit, Word.Holds n
  context : ∀ c ∈ q.context, c.Fits
  threshold : ∀ n ∈ q.threshold, Word.Holds n
  dimension : ∀ d ∈ q.dimension, d.Fits
  dimensions : ∀ ds ∈ q.dimensions, ∀ d ∈ ds, d.Fits

/-- A query that says nothing only the tenant language knows, and that depends on no clock. -/
structure Plain (q : Query) : Prop where
  extensions : q.clearExtensions = q
  relativeIntervals : present q.relativeIntervals = none

def settled (q : Query) : Query :=
  { q with
    dataSource := Text.normal q.dataSource
    filter := q.filter.map Filter.settled
    intervals := (present q.intervals).map (·.map Interval.settled)
    relativeIntervals := present q.relativeIntervals
    aggregations := (present q.aggregations).map (·.map Aggregator.settled)
    postAggregations := (present q.postAggregations).map (·.map PostAggregator.settled)
    context := q.context.map Context.settled
    metric := q.metric.map Metric.settled
    dimension := q.dimension.map Dimension.settled
    dimensions := (present q.dimensions).map (·.map Dimension.settled)
    steps := (present q.steps).map (·.map Filter.settled)
    stepNames := (present q.stepNames).map (·.map Text.normal)
    sample1 := q.sample1.map NamedFilter.settled
    sample2 := q.sample2.map NamedFilter.settled
    successCriterion := q.successCriterion.map NamedFilter.settled }

theorem sound_fields : Sound fields := by
  refine .of (by decide) ?_
  unfold fields
  repeat' first
    | exact List.Pairwise.nil
    | refine List.Pairwise.cons ?_ ?_
    | exact List.forall_mem_nil _
    | refine List.forall_mem_cons.2 ⟨Member.independent_of fun _ _ _ => rfl, ?_⟩

/-- The members of a query without extensions, in the order of the fields. -/
def plainMembers (q : Query) : List (String × Json) :=
  ("queryType", .string q.queryType.name) :: (ifText "dataSource" q.dataSource ++
    (ifSome "descending" .bool q.descending ++ (ifSome "filter" Filter.encode q.filter ++
    (ifAny "intervals" Interval.encode q.intervals ++ ("granularity", q.granularity.encode) ::
    (ifAny "aggregations" Aggregator.encode q.aggregations ++
    (ifAny "postAggregations" PostAggregator.encode q.postAggregations ++
    (ifSome "limit" ofInt q.limit ++ (ifSome "context" Context.encode q.context ++
    (ifSome "threshold" ofInt q.threshold ++ (ifSome "metric" Metric.encode q.metric ++
    (ifSome "dimension" Dimension.encode q.dimension ++
    ifAny "dimensions" Dimension.encode q.dimensions)))))))))))

theorem Plain.encode_eq {q : Query} (h : q.Plain) : q.encode = .object q.plainMembers := by
  have hrelative : ifAny "relativeIntervals" RelativeInterval.encode q.relativeIntervals = [] :=
    ifAny_of_present h.relativeIntervals
  have hsome {α : Type} (name : String) (write : α → Json) : ifSome name write none = [] := rfl
  have hany {α : Type} (name : String) (write : α → Json) : ifAny name write none = [] := rfl
  rw [← h.extensions]
  simp only [encode, clearExtensions, plainMembers, hrelative, hsome, hany, List.append_assoc,
    List.append_nil, List.nil_append, List.cons_append]

theorem Plain.settled {q : Query} (h : q.Plain) : q.settled.Plain := by
  constructor
  · rw [← h.extensions]
    rfl
  · rw [Query.settled, h.relativeIntervals]
    rfl

/-- What is read of a query before its nodes are. -/
def plainWire (q : Query) : Wire where
  queryType := some q.queryType
  dataSource := Text.normal q.dataSource
  descending := q.descending
  filter := q.filter.map fun f => f.encode.settled
  intervals := (present q.intervals).map (·.map Interval.settled)
  granularity := some q.granularity
  aggregations := (present q.aggregations).map (·.map fun a => a.encode.settled)
  postAggregations := (present q.postAggregations).map (·.map fun p => p.encode.settled)
  limit := q.limit
  context := q.context.map Context.settled
  threshold := q.threshold
  metric := q.metric.map fun m => m.encode.settled
  dimension := q.dimension.map fun d => d.encode.settled
  dimensions := (present q.dimensions).map (·.map fun d => d.encode.settled)

section Reading

variable {q : Query}

theorem Fits.filter_rereads (h : q.Fits) :
    ∀ f ∈ q.filter, Rereads Filter.encode Filter.readWithin f f.settled :=
  fun f hf => f.rereads (h.filter f hf)

theorem Fits.aggregation_rereads (h : q.Fits) : ∀ as ∈ q.aggregations, ∀ a ∈ as,
    Rereads Aggregator.encode Aggregator.readWithin a a.settled :=
  fun as has a ha => a.rereads (h.aggregations as has a ha).1 (h.aggregations as has a ha).2

theorem Fits.postAggregation_rereads (h : q.Fits) : ∀ ps ∈ q.postAggregations, ∀ p ∈ ps,
    Rereads PostAggregator.encode PostAggregator.readWithin p p.settled :=
  fun ps hps p hp => p.rereads (h.postAggregations ps hps p hp)

theorem Fits.dimension_rereads (h : q.Fits) :
    ∀ d ∈ q.dimension, Rereads Dimension.encode (fun _ => Dimension.read) d d.settled :=
  fun d hd => Dimension.rereads (h.dimension d hd)

theorem Fits.dimensions_rereads (h : q.Fits) : ∀ ds ∈ q.dimensions, ∀ d ∈ ds,
    Rereads Dimension.encode (fun _ => Dimension.read) d d.settled :=
  fun ds hds d hd => Dimension.rereads (h.dimensions ds hds d hd)

theorem writes_plainMembers (h : q.Fits) :
    Writes fields {} q.plainMembers q.settled.plainMembers q.plainWire := by
  have hfilter := h.filter_rereads
  have haggregations := h.aggregation_rereads
  have hpost := h.postAggregation_rereads
  have hdimension := h.dimension_rereads
  have hdimensions := h.dimensions_rereads
  refine .of (QueryType.codes _) (.ifText rfl (.ifSame (fun b _ => codes_flag b) rfl
    (.skip (.skip (.skip ?_)))))
  refine .rawSome (fun f hf => ⟨(hfilter f hf).alike, (hfilter f hf).notNull⟩) rfl ?_
  refine .ifAny (fun is his i hi => Interval.codes (h.intervals is his i hi)) rfl (.skip ?_)
  refine .of (Granularity.codes h.granularity) ?_
  refine .ifAny (fun as has a ha =>
    codes_raw (haggregations as has a ha).alike (haggregations as has a ha).notNull) rfl ?_
  refine .ifAny (fun ps hps p hp =>
    codes_raw (hpost ps hps p hp).alike (hpost ps hps p hp).notNull) rfl ?_
  refine .ifSame (fun n hn => codes_int (h.limit n hn)) rfl ?_
  refine .ifSome (fun c hc => Context.codes (h.context c hc)) rfl ?_
  refine .ifSame (fun n hn => codes_int (h.threshold n hn)) rfl ?_
  refine .rawSome (fun m _ => ⟨m.rereads.alike, m.rereads.notNull⟩) rfl ?_
  refine .rawSome (fun d hd => ⟨(hdimension d hd).alike, (hdimension d hd).notNull⟩) rfl ?_
  refine .last (.ifAny (fun ds hds d hd =>
    codes_raw (hdimensions ds hds d hd).alike (hdimensions ds hds d hd).notNull) rfl ?_)
  exact .skip (.skip (.skip (.skip (.skip .nil))))

theorem settles_plainMember (hplain : q.Plain) (h : q.Fits) (hsettles : q.encode.Settles)
    {m : String × Json} (hm : m ∈ q.plainMembers) : m.2.Settles := by
  rw [hplain.encode_eq, settles_object ((writes_plainMembers h).names_nodup sound_fields)] at hsettles
  exact hsettles.1 m hm

theorem alike (hplain : q.Plain) (h : q.Fits) : Alike q.encode q.settled.encode := by
  have hwrites := writes_plainMembers h
  rw [hplain.encode_eq, hplain.settled.encode_eq]
  exact hwrites.alike (List.forall_mem_nil _) (hwrites.names_nodup sound_fields)

theorem readOptional_settled {α : Type} {encode : α → Json} {settle : α → α}
    {read : Nat → Option Json → Except Error α} {v : Option α} {name : String}
    (hv : ∀ a ∈ v, Rereads encode read a (settle a))
    (hsettles : ∀ m ∈ ifSome name encode v, m.2.Settles) :
    readOptionalNode (fun raw => read (depthOf raw + 1) raw) (v.map fun a => (encode a).settled) =
      .ok (v.map settle) := by
  refine readOptionalNode_map fun a ha => ⟨(hv a ha).notNull, (hv a ha).read_some ?_⟩
  cases ha
  exact hsettles _ (List.mem_singleton_self _)

/-- Nodes in a list that may be missing are read back, unless there are none. -/
theorem readNodes_present {α : Type} {encode : α → Json} {settle : α → α}
    {read : Nat → Option Json → Except Error α} {v : Option (List α)} {name : String}
    (hv : ∀ as ∈ v, ∀ a ∈ as, Rereads encode read a (settle a))
    (hsettles : ∀ m ∈ ifAny name encode v, m.2.Settles) :
    readNodes (fun raw => read (depthOf raw + 1) raw)
        ((present v).map (·.map fun a => (encode a).settled)) =
      .ok ((present v).map (·.map settle)) := by
  match v with
  | none | some [] => rfl
  | some (a :: as) =>
      have hitems := settles_of_mem_map (hsettles _ (List.mem_singleton_self _))
      exact readNodes_map fun b hb => (hv _ rfl b hb).read_some (hitems b hb)

theorem read_settled (hplain : q.Plain) (h : q.Fits) (hsettles : q.encode.Settles) :
    read q.encode.settled = .ok q.settled := by
  have hmember {m : String × Json} (hm : m ∈ q.plainMembers) : m.2.Settles :=
    settles_plainMember hplain h hsettles hm
  have hwire : readRecord fields {} q.encode.settled = .ok q.plainWire := by
    have hwrites := writes_plainMembers h
    rw [hplain.encode_eq] at hsettles ⊢
    exact readRecord_settled sound_fields hwrites (List.forall_mem_nil _) (List.Perm.refl _)
      (hwrites.names_nodup sound_fields) hsettles
  have hfilter : Filter.readOptional q.plainWire.filter = .ok q.settled.filter :=
    readOptional_settled h.filter_rereads
      fun m (hm : m ∈ ifSome "filter" Filter.encode q.filter) => hmember (by simp [plainMembers, hm])
  have haggregations : readNodes Aggregator.read q.plainWire.aggregations =
      .ok q.settled.aggregations :=
    readNodes_present h.aggregation_rereads
      fun m (hm : m ∈ ifAny "aggregations" Aggregator.encode q.aggregations) =>
        hmember (by simp [plainMembers, hm])
  have hpost : readNodes PostAggregator.read q.plainWire.postAggregations =
      .ok q.settled.postAggregations :=
    readNodes_present h.postAggregation_rereads
      fun m (hm : m ∈ ifAny "postAggregations" PostAggregator.encode q.postAggregations) =>
        hmember (by simp [plainMembers, hm])
  have hdimensions : readNodes Dimension.read q.plainWire.dimensions = .ok q.settled.dimensions :=
    readNodes_present h.dimensions_rereads
      fun m (hm : m ∈ ifAny "dimensions" Dimension.encode q.dimensions) =>
        hmember (by simp [plainMembers, hm])
  have hmetric : readOptionalNode Metric.read q.plainWire.metric = .ok q.settled.metric :=
    readOptional_settled (fun m _ => m.rereads)
      fun m (hm : m ∈ ifSome "metric" Metric.encode q.metric) => hmember (by simp [plainMembers, hm])
  have hdimension : readOptionalNode Dimension.read q.plainWire.dimension =
      .ok q.settled.dimension :=
    readOptional_settled h.dimension_rereads
      fun m (hm : m ∈ ifSome "dimension" Dimension.encode q.dimension) =>
        hmember (by simp [plainMembers, hm])
  have hsteps : readNodes Filter.read q.plainWire.steps = .ok none := rfl
  simp only [read, hwire, ok_bind, inMember, hfilter, haggregations, hpost, hsteps, hdimensions,
    hmetric, hdimension, mapError_ok]
  have hrelative : q.settled.relativeIntervals = none := hplain.relativeIntervals
  conv_rhs => rw [← hplain.settled.extensions, clearExtensions, hrelative]
  rfl

end Reading

end Query

end TenantQuery
