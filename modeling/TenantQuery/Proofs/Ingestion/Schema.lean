import TenantQuery.Ingestion.Schema
import TenantQuery.Proofs.Query.Fits

namespace TenantQuery.Ingestion

open Json Outcome

namespace TimestampSpec

def settled (t : TimestampSpec) : TimestampSpec :=
  ⟨Text.normal t.column, Text.normal t.format⟩

theorem sound_fields : Sound fields :=
  .of (by decide) (by simp [fields, Member.independent_of])

theorem codes (t : TimestampSpec) :
    Codes encode (Slot.record fields {} []) t t.settled t.settled :=
  Writes.codes sound_fields rfl rfl (.ifText rfl (.last (.ifText rfl .nil)))

end TimestampSpec

/-- A granularity that documents admit, or none. -/
def Admitted (g : Granularity) : Prop :=
  g = .unset ∨ g ∈ Granularity.known

/-- A granularity that is left out where there is none. -/
theorem writes_ifAdmitted {σ : Type} {name : String} {set : σ → Granularity → σ}
    {fs : List (Member σ)} {s t : σ} {ms ms' : List (String × Json)} {g : Granularity}
    (hg : Admitted g) (hset : set s .unset = s) (h : Writes fs (set s g) ms ms' t) :
    Writes (.of name (Slot.fresh Granularity.read) set :: fs) s (ifText name g.name ++ ms)
      (ifText name g.name ++ ms') t := by
  rcases hg with rfl | hg
  · rw [hset] at h
    exact .skip h
  · have hnames : ∀ g ∈ Granularity.known, g.name ≠ "" := by decide
    have hmember : ifText name g.name = [(name, g.encode)] := by
      rw [ifText, if_neg (hnames g hg), Granularity.encode]
    rw [hmember]
    exact .of (Granularity.codes_fresh hg) h

namespace GranularitySpec

structure Fits (g : GranularitySpec) : Prop where
  segment : Admitted g.segment
  query : Admitted g.query

theorem sound_fields : Sound fields :=
  .of (by decide) (by simp [fields, Member.independent_of])

theorem keep_fields : Keep fields Fits :=
  have hread : Slot.Ensures (Slot.fresh Granularity.read) Admitted :=
    fun _ _ _ h => .inr (Granularity.known_of_read h)
  .of hread (fun _ _ h h' => ⟨h', h.query⟩) (.of hread (fun _ _ h h' => ⟨h.segment, h'⟩)
    (.other (fun _ _ h => ⟨h.segment, h.query⟩) .nil))

theorem encode_eq (g : GranularitySpec) : g.encode =
    .object (ifText "segmentGranularity" g.segment.name ++
      (ifText "queryGranularity" g.query.name ++ ifSome "rollup" .bool g.rollup)) := by
  rw [encode, List.append_assoc]

theorem codes {g : GranularitySpec} (h : g.Fits) :
    Codes encode (Slot.record fields {} []) g g g :=
  Writes.codes sound_fields (encode_eq g) (encode_eq g)
    (writes_ifAdmitted h.segment rfl (writes_ifAdmitted h.query rfl
      (.last (.ifSame (fun b _ => codes_flag b) rfl .nil))))

end GranularitySpec

namespace TransformSpec

def settled (t : TransformSpec) : TransformSpec :=
  ⟨t.filter.map Filter.settled⟩

def Fits (t : TransformSpec) : Prop :=
  ∀ f ∈ t.filter, ∀ i ∈ f.windows, i.Dated

theorem sound_fields : Sound fields :=
  .of (by decide) (by simp [fields])

theorem fits_of_read {j : Json} {t : TransformSpec} (h : read j = .ok t) : t.Fits := by
  unfold read at h
  split at h
  · rename_i filter hfilter
    cases h
    obtain ⟨raw, -, hfilter⟩ := bind_eq_ok.1 hfilter
    exact Filter.dated_of_readOptional hfilter
  · cases h

theorem codes {t : TransformSpec} (h : t.Fits) :
    Codes encode (Slot.fresh read []) t t.settled t.settled := by
  have hrereads (f : Filter) (hf : f ∈ t.filter) := f.rereads (h f hf)
  have hwrites : Writes fields none (ifSome "filter" Filter.encode t.filter)
      (ifSome "filter" Filter.encode t.settled.filter)
      (t.filter.map fun f => f.encode.settled) :=
    .last (.rawSome (fun f hf => ⟨(hrereads f hf).alike, (hrereads f hf).notNull⟩) rfl .nil)
  have hkeys := hwrites.names_nodup sound_fields
  refine ⟨hwrites.alike (List.forall_mem_nil _) hkeys, rfl, fun hsettles => ?_⟩
  have hwire := readRecord_settled sound_fields hwrites (List.forall_mem_nil _) (List.Perm.refl _)
    hkeys hsettles
  have hfilter : Filter.readOptional (t.filter.map fun f => f.encode.settled) =
      .ok t.settled.filter :=
    Query.readOptional_settled hrereads ((settles_object hkeys).1 hsettles).1
  simp only [List.nil_append] at hwire
  simp only [Slot.fresh, read, readFilter, encode, hwire, ok_bind, hfilter, settled]

end TransformSpec

namespace DimensionColumn

def settled (d : DimensionColumn) : DimensionColumn :=
  { d with
    type := Text.normal d.type
    name := Text.normal d.name
    multiValueHandling := d.multiValueHandling.map Text.normal }

theorem sound_fields : Sound fields :=
  .of (by decide) (by simp [fields, Member.independent_of])

theorem encode_eq (d : DimensionColumn) : d.encode =
    .object (("type", .string d.type) :: ("name", .string d.name) ::
      (ifSome "createBitmapIndex" .bool d.createBitmapIndex ++
      ifSome "multiValueHandling" .string d.multiValueHandling)) := by
  simp only [encode, List.cons_append, List.nil_append]

theorem codes (d : DimensionColumn) :
    Codes encode (Slot.record fields {} []) d d.settled d.settled :=
  Writes.codes sound_fields (encode_eq d) (encode_eq d.settled)
    (.of (codes_text _) (.of (codes_text _) (.ifSame (fun b _ => codes_flag b) rfl
      (.last (.ifSome (fun s _ => codes_text s) rfl .nil)))))

end DimensionColumn

namespace DimensionsSpec

def settled (d : DimensionsSpec) : DimensionsSpec :=
  { d with
    dimensions := (present d.dimensions).map (·.map DimensionColumn.settled)
    dimensionExclusions := (present d.dimensionExclusions).map (·.map Text.normal)
    spatialDimensions := (present d.spatialDimensions).map (·.map Text.normal) }

theorem sound_fields : Sound fields :=
  .of (by decide) (by simp [fields, Member.independent_of])

theorem encode_eq (d : DimensionsSpec) : d.encode =
    .object (ifAny "dimensions" DimensionColumn.encode d.dimensions ++
      (ifAny "dimensionExclusions" .string d.dimensionExclusions ++
      (ifAny "spatialDimensions" .string d.spatialDimensions ++
      (ifSome "includeAllDimensions" .bool d.includeAllDimensions ++
      (ifSome "useSchemaDiscovery" .bool d.useSchemaDiscovery ++
      ifSome "forceSegmentSortByTime" .bool d.forceSegmentSortByTime))))) := by
  simp only [encode, List.append_assoc]

theorem codes (d : DimensionsSpec) :
    Codes encode (Slot.record fields {} []) d d.settled d.settled :=
  Writes.codes sound_fields (encode_eq d) (encode_eq d.settled)
    (.ifAny (fun _ _ c _ => c.codes) rfl (.ifAny (fun _ _ s _ => codes_text s) rfl
      (.ifAny (fun _ _ s _ => codes_text s) rfl (.ifSame (fun b _ => codes_flag b) rfl
      (.ifSame (fun b _ => codes_flag b) rfl
      (.last (.ifSame (fun b _ => codes_flag b) rfl .nil)))))))

end DimensionsSpec

namespace DataSchema

/-- Granularities, windows and numbers that a document can hold. -/
structure Fits (d : DataSchema) : Prop where
  granularity : ∀ g ∈ d.granularitySpec, g.Fits
  transform : ∀ t ∈ d.transformSpec, t.Fits
  metrics : ∀ as ∈ d.metricsSpec, ∀ a ∈ as, a.Fits ∧ ∀ i ∈ a.windows, i.Dated

def settled (d : DataSchema) : DataSchema where
  dataSource := Text.normal d.dataSource
  timestampSpec := d.timestampSpec.map TimestampSpec.settled
  metricsSpec := (present d.metricsSpec).map (·.map Aggregator.settled)
  granularitySpec := d.granularitySpec
  transformSpec := d.transformSpec.map TransformSpec.settled
  dimensionsSpec := d.dimensionsSpec.map DimensionsSpec.settled

theorem sound_fields : Sound fields :=
  .of (by decide) (by simp [fields, Member.independent_of])

theorem keep_fields : Keep fields fun w =>
    (∀ g ∈ w.schema.granularitySpec, g.Fits) ∧ ∀ t ∈ w.schema.transformSpec, t.Fits :=
  .other (fun _ _ h => h) (.other (fun _ _ h => h)
    (.of (.optional (.record GranularitySpec.keep_fields ⟨.inl rfl, .inl rfl⟩))
      (fun _ _ h h' => ⟨h', h.2⟩)
    (.of (.optional fun _ _ _ => TransformSpec.fits_of_read) (fun _ _ h h' => ⟨h.1, h'⟩)
    (.other (fun _ _ h => h) (.other (fun _ _ h => h) .nil)))))

theorem fits_of_read {j : Json} {d : DataSchema} (h : read j = .ok d) : d.Fits := by
  unfold read at h
  split at h
  · cases h
  · rename_i w hw
    split at h
    · cases h
    · rename_i metrics hmetrics
      cases h
      obtain ⟨hgranularity, htransform⟩ := readRecord_keeps keep_fields (by simp) hw
      exact ⟨hgranularity, htransform,
        readNodes_ensures (fun _ => Aggregator.fits_of_readWithin _ _) hmetrics⟩

/-- The members of a schema in the order of the fields. -/
def members (d : DataSchema) : List (String × Json) :=
  ("dataSource", .string d.dataSource) ::
    (ifSome "timestampSpec" TimestampSpec.encode d.timestampSpec ++
    (ifSome "granularitySpec" GranularitySpec.encode d.granularitySpec ++
    (ifSome "transformSpec" TransformSpec.encode d.transformSpec ++
    (ifSome "dimensionsSpec" DimensionsSpec.encode d.dimensionsSpec ++
    ifAny "metricsSpec" Aggregator.encode d.metricsSpec))))

/-- The metrics stand further in front where they are written. -/
theorem reordered (d : DataSchema) : Reordered (.object d.members) d.encode := by
  refine .mk ?_
  rw [members]
  simp only [List.append_assoc]
  exact ((perm_last_first _ _ _ _).append_left _).cons _

/-- What is read of a schema before its metrics are. -/
def wire (d : DataSchema) : Wire where
  schema := { d.settled with metricsSpec := none }
  metrics := (present d.metricsSpec).map (·.map fun a => a.encode.settled)

section Reading

variable {d : DataSchema}

theorem rereads_metrics (h : d.Fits) :
    ∀ as ∈ d.metricsSpec, ∀ a ∈ as,
      Rereads Aggregator.encode Aggregator.readWithin a a.settled := by
  intro as has a ha
  obtain ⟨hfits, hdated⟩ := h.metrics as has a ha
  exact a.rereads hfits hdated

theorem writes (h : d.Fits) :
    Writes fields {} d.members d.settled.members d.wire := by
  have hmetrics := rereads_metrics h
  refine .of (codes_text _) (.ifSome (fun t _ => t.codes) rfl ?_)
  refine .ifSame (fun g hg => GranularitySpec.codes (h.granularity g hg)) rfl ?_
  refine .ifSome (fun t ht => TransformSpec.codes (h.transform t ht)) rfl ?_
  refine .ifSome (fun s _ => s.codes) rfl ?_
  exact .last (.ifAny (fun as has a ha =>
    codes_raw (hmetrics as has a ha).alike (hmetrics as has a ha).notNull) rfl .nil)

theorem codes (h : d.Fits) : Codes encode (Slot.fresh read []) d d.settled d.settled := by
  have hwrites := writes h
  have hkeys := hwrites.names_nodup sound_fields
  have hordered : Codes (fun d => .object (members d)) (Slot.fresh read []) d d.settled d.settled := by
    refine ⟨hwrites.alike (List.forall_mem_nil _) hkeys, rfl, fun hsettles => ?_⟩
    have hwire := readRecord_settled sound_fields hwrites (List.forall_mem_nil _)
      (List.Perm.refl _) hkeys hsettles
    have hmetrics : readNodes Aggregator.read d.wire.metrics = .ok d.settled.metricsSpec :=
      Query.readNodes_present (rereads_metrics h)
        fun m (hm : m ∈ ifAny "metricsSpec" Aggregator.encode d.metricsSpec) =>
          ((settles_object hkeys).1 hsettles).1 m (by simp [members, hm])
    simp only [List.nil_append] at hwire
    simp only [Slot.fresh, read, hwire, hmetrics]
    rfl
  exact hordered.reorder reordered

end Reading

end DataSchema

namespace InputFormat

def settled (f : InputFormat) : InputFormat :=
  { f with type := Text.normal f.type }

theorem sound_fields : Sound fields :=
  .of (by decide) (by simp [fields, Member.independent_of])

theorem codes (f : InputFormat) : Codes encode (Slot.record fields {} []) f f.settled f.settled :=
  Writes.codes sound_fields rfl rfl
    (.of (codes_text _) (.last (.ifSame (fun b _ => codes_flag b) rfl .nil)))

end InputFormat

end TenantQuery.Ingestion
