import TenantQuery.Proofs.Dimension.Verbatim
import TenantQuery.Proofs.Json.Invariant
import TenantQuery.Proofs.Query.Codec

namespace TenantQuery

open Json Outcome

theorem Interval.slot_ensures :
    Slot.Ensures Interval.slot fun v => ∀ is ∈ v, ∀ i ∈ is, i.Dated :=
  .list fun _ _ _ => Interval.dated_of_read

theorem Predicate.forms_ensure : Forms.Ensure forms fun p => ∀ i ∈ p.windows, i.Dated := by
  have hduring : Keep During.fields fun p => ∀ is ∈ p.intervals, ∀ i ∈ is, i.Dated :=
    .other (fun _ _ h => h) (.of Interval.slot_ensures (fun _ _ _ h => h) .nil)
  simp only [Forms.Ensure, forms, List.forall_mem_cons, List.not_mem_nil, false_implies,
    implies_true, map_eq_ok, and_true]
  refine ⟨?_, ?_, ?_, ?_, ?_, ?_, ?_, ?_⟩
  iterate 7
    · rintro j _ ⟨p, -, rfl⟩
      exact List.forall_mem_nil _
  · rintro j _ ⟨p, hp, rfl⟩
    have hdated := readRecord_keeps hduring (by simp) hp
    cases hintervals : p.intervals with
    | none => simp [windows, hintervals]
    | some is => simpa [windows, hintervals] using hdated is hintervals

namespace Filter

theorem forms_ensure {inner : Option Json → Except Error Filter}
    (hinner : ∀ raw f, inner raw = .ok f → ∀ i ∈ f.windows, i.Dated) :
    (forms inner).Ensure fun f => ∀ i ∈ f.windows, i.Dated := by
  have hjunction {op : Junction} {raw : Option (List Json)} {v : Option (List Filter)}
      (h : readNodes inner raw = .ok v) : ∀ i ∈ (junction op v).windows, i.Dated := by
    cases v with
    | none => exact List.forall_mem_nil _
    | some fs =>
        rw [windows, windowsAll_eq]
        intro i hi
        obtain ⟨f, hf, hi⟩ := List.mem_flatMap.1 hi
        exact readNodes_ensures hinner h fs rfl f hf i hi
  refine .append ?_ ?_
  · intro form hform j f h
    obtain ⟨⟨type, read⟩, hread, rfl⟩ := List.mem_map.1 hform
    obtain ⟨p, hp, rfl⟩ := map_eq_ok.1 h
    exact Predicate.forms_ensure _ hread j p hp
  · simp only [Forms.Ensure, List.forall_mem_cons, List.not_mem_nil, false_implies, implies_true,
      map_eq_ok, and_true]
    refine ⟨?_, ?_, ?_, ?_, ?_⟩
    iterate 2
      · intro j f h
        obtain ⟨raw, -, h⟩ := bind_eq_ok.1 h
        obtain ⟨v, hv, h⟩ := bind_eq_ok.1 h
        cases h
        exact hjunction hv
    · intro j f h
      obtain ⟨raw, -, h⟩ := bind_eq_ok.1 h
      obtain ⟨operand, hoperand, h⟩ := bind_eq_ok.1 h
      cases h
      rw [windows]
      exact hinner _ _ hoperand
    iterate 2
      · rintro j _ ⟨_, -, rfl⟩
        exact List.forall_mem_nil _

theorem dated_of_readWithin (fuel : Nat) :
    ∀ raw f, readWithin fuel raw = .ok f → ∀ i ∈ f.windows, i.Dated := by
  induction fuel with
  | zero => exact fun _ _ h => nomatch h
  | succ fuel ih => exact fun _ _ => readNode_ensures (forms_ensure ih)

theorem dated_of_read (raw : Option Json) (f : Filter) (h : read raw = .ok f) :
    ∀ i ∈ f.windows, i.Dated :=
  dated_of_readWithin _ raw f h

theorem dated_of_readOptional {raw : Option Json} {v : Option Filter}
    (h : readOptional raw = .ok v) : ∀ f ∈ v, ∀ i ∈ f.windows, i.Dated :=
  readOptionalNode_ensures dated_of_read h

end Filter

namespace Aggregator

theorem keep_thetaSketch : Keep thetaSketchFields fun a => ∀ n ∈ a.size, Word.Holds n :=
  .other (fun _ _ h => h) (.other (fun _ _ h => h) (.other (fun _ _ h => h)
    (.of (.optional .int) (fun _ _ _ h => h) (.other (fun _ _ h => h) .nil))))

theorem keep_quantilesSketch : Keep quantilesSketchFields
    fun a => (∀ n ∈ a.k, Word.Holds n) ∧ ∀ n ∈ a.maxStreamLength, Word.Holds n :=
  .other (fun _ _ h => h) (.other (fun _ _ h => h)
    (.of (.optional .int) (fun _ _ h h' => ⟨h', h.2⟩)
      (.of (.optional .int) (fun _ _ h h' => ⟨h.1, h'⟩) (.other (fun _ _ h => h) .nil))))

theorem keep_bins : Keep binFields Bins.Fits :=
  .of (.list .double) (fun _ _ h h' => ⟨h', h.numBins⟩)
    (.of (.optional .int) (fun _ _ h h' => ⟨h.splitPoints, h'⟩) .nil)

theorem fits_noBins : Bins.Fits {} :=
  ⟨by simp, by simp⟩

/-- Bins inside another record. -/
theorem keep_lifted_bins {σ : Type} (get : σ → Bins) (put : σ → Bins → σ)
    (hget : ∀ s b, get (put s b) = b) :
    Keep (binFields.map (Member.lift get put)) fun s => (get s).Fits := by
  intro f hf
  obtain ⟨g, hg, rfl⟩ := List.mem_map.1 hf
  exact (keep_bins g hg).lift get put hget

theorem keep_histogram : Keep histogramFields fun a => a.bins.Fits :=
  .other (fun _ _ h => h) (keep_lifted_bins _ _ fun _ _ => rfl)

theorem forms_ensure {inner : Option Json → Except Error Aggregator}
    (hinner : ∀ raw a, inner raw = .ok a → a.Fits ∧ ∀ i ∈ a.windows, i.Dated) :
    (forms inner).Ensure fun a => a.Fits ∧ ∀ i ∈ a.windows, i.Dated := by
  have hnone : ∀ i ∈ ([] : List Interval), i.Dated := List.forall_mem_nil _
  refine .append ?_ ?_
  · intro f hf j a h
    obtain ⟨kind, -, rfl⟩ := List.mem_map.1 hf
    obtain ⟨c, -, rfl⟩ := map_eq_ok.1 h
    exact ⟨trivial, hnone⟩
  · simp only [Forms.Ensure, List.forall_mem_cons, List.not_mem_nil, false_implies, implies_true,
      map_eq_ok, and_true]
    refine ⟨?_, ?_, ?_, ?_, ?_, ?_, ?_, ?_, ?_⟩
    · rintro j _ ⟨name, -, rfl⟩
      exact ⟨trivial, hnone⟩
    · rintro j _ ⟨a, ha, rfl⟩
      exact ⟨readRecord_keeps keep_thetaSketch (by simp) ha, hnone⟩
    · rintro j _ ⟨a, -, rfl⟩
      exact ⟨trivial, hnone⟩
    · rintro j _ ⟨a, -, rfl⟩
      exact ⟨trivial, hnone⟩
    · rintro j _ ⟨a, ha, rfl⟩
      exact ⟨readRecord_keeps keep_quantilesSketch (by simp) ha, hnone⟩
    · intro j a h
      obtain ⟨wire, -, h⟩ := bind_eq_ok.1 h
      obtain ⟨filter, hfilter, h⟩ := bind_eq_ok.1 h
      obtain ⟨a', ha', h⟩ := bind_eq_ok.1 h
      cases h
      obtain ⟨hfits, hdated⟩ := hinner _ _ ha'
      exact ⟨hfits, List.forall_mem_append.2 ⟨Filter.dated_of_read _ _ hfilter, hdated⟩⟩
    · rintro j _ ⟨name, -, rfl⟩
      exact ⟨trivial, hnone⟩
    · rintro j _ ⟨name, -, rfl⟩
      exact ⟨trivial, hnone⟩
    · rintro j _ ⟨a, ha, rfl⟩
      exact ⟨readRecord_keeps keep_histogram fits_noBins ha, hnone⟩

theorem fits_of_readWithin (fuel : Nat) :
    ∀ raw a, readWithin fuel raw = .ok a → a.Fits ∧ ∀ i ∈ a.windows, i.Dated := by
  induction fuel with
  | zero => exact fun _ _ h => nomatch h
  | succ fuel ih => exact fun _ _ => readNode_ensures (forms_ensure ih)

end Aggregator

namespace PostAggregator

theorem keep_setOp : Keep setOpFields fun w => ∀ n ∈ w.size, Word.Holds n :=
  .other (fun _ _ h => h) (.other (fun _ _ h => h) (.of (.optional .int) (fun _ _ _ h => h)
    (.other (fun _ _ h => h) .nil)))

theorem keep_constant : Keep constantFields fun w => w.2.isFinite = true :=
  .other (fun _ _ h => h) (.of .double (fun _ _ _ h => h) .nil)

theorem keep_histogram : Keep histogramFields fun w => w.bins.Fits :=
  .other (fun _ _ h => h) (.other (fun _ _ h => h)
    (Aggregator.keep_lifted_bins _ _ fun _ _ => rfl))

theorem forms_ensure {inner : Inner} (hinner : ∀ raw p, inner raw = .ok p → p.Fits) :
    (forms inner).Ensure Fits := by
  have hnodes {raw v} (h : readNodes inner raw = .ok v) : FitOperands v :=
    fitOperands_iff.2 (readNodes_ensures hinner h)
  refine .append ?_ ?_
  · intro f hf j p h
    obtain ⟨kind, -, rfl⟩ := List.mem_map.1 hf
    obtain ⟨wire, -, h⟩ := bind_eq_ok.1 h
    obtain ⟨operands, hoperands, h⟩ := bind_eq_ok.1 h
    cases h
    exact hnodes hoperands
  · simp only [Forms.Ensure, List.forall_mem_cons, List.not_mem_nil, false_implies, implies_true,
      map_eq_ok, and_true]
    refine ⟨?_, ?_, ?_, ?_, ?_, ?_, ?_, ?_, ?_, ?_, ?_⟩
    · intro j p h
      obtain ⟨wire, -, h⟩ := bind_eq_ok.1 h
      split at h
      · cases h
      · obtain ⟨operands, hoperands, h⟩ := bind_eq_ok.1 h
        cases h
        exact hnodes hoperands
    · rintro j _ ⟨w, -, rfl⟩
      trivial
    · rintro j _ ⟨w, -, rfl⟩
      trivial
    · rintro j _ ⟨w, hw, rfl⟩
      exact readRecord_keeps keep_constant (by decide) hw
    · rintro j _ ⟨w, -, rfl⟩
      trivial
    · rintro j _ ⟨w, -, rfl⟩
      trivial
    · intro j p h
      obtain ⟨wire, -, h⟩ := bind_eq_ok.1 h
      obtain ⟨operand, hoperand, h⟩ := bind_eq_ok.1 h
      cases h
      exact (hinner _ _ hoperand : operand.Fits)
    · intro j p h
      obtain ⟨wire, hwire, h⟩ := bind_eq_ok.1 h
      split at h
      · cases h
      · obtain ⟨operands, hoperands, h⟩ := bind_eq_ok.1 h
        cases h
        exact ⟨readRecord_keeps keep_setOp (by simp) hwire, hnodes hoperands⟩
    · intro j p h
      obtain ⟨wire, hwire, h⟩ := bind_eq_ok.1 h
      obtain ⟨operand, hoperand, h⟩ := bind_eq_ok.1 h
      cases h
      exact ⟨hinner _ _ hoperand, readRecord_keeps keep_histogram Aggregator.fits_noBins hwire⟩
    · intro j p h
      obtain ⟨wire, -, h⟩ := bind_eq_ok.1 h
      obtain ⟨size1, hsize1, h⟩ := bind_eq_ok.1 h
      obtain ⟨success1, hsuccess1, h⟩ := bind_eq_ok.1 h
      obtain ⟨size2, hsize2, h⟩ := bind_eq_ok.1 h
      obtain ⟨success2, hsuccess2, h⟩ := bind_eq_ok.1 h
      cases h
      exact ⟨hinner _ _ hsize1, hinner _ _ hsuccess1, hinner _ _ hsize2, hinner _ _ hsuccess2⟩
    · intro j p h
      obtain ⟨wire, -, h⟩ := bind_eq_ok.1 h
      obtain ⟨score, hscore, h⟩ := bind_eq_ok.1 h
      cases h
      exact (hinner _ _ hscore : score.Fits)

theorem fits_of_readWithin (fuel : Nat) : ∀ raw p, readWithin fuel raw = .ok p → p.Fits := by
  induction fuel with
  | zero => exact fun _ _ h => nomatch h
  | succ fuel ih => exact fun _ _ => readNode_ensures (forms_ensure ih)

end PostAggregator

theorem Lookup.sorted_of_read {raw : Option Json} {l : Lookup} (h : Lookup.read raw = .ok l) :
    l.Sorted := by
  refine readNode_ensures (P := Lookup.Sorted) ?_ h
  simp only [Forms.Ensure, forms, List.forall_mem_cons, List.not_mem_nil, false_implies,
    implies_true, map_eq_ok, and_true]
  constructor
  · rintro j _ ⟨name, -, rfl⟩
    trivial
  · rintro j _ ⟨entries, hentries, rfl⟩
    have hkeep : Keep entryFields fun v => ∀ es ∈ v, Ordered es :=
      .of (.map (.trivial _)) (fun _ _ _ h es hes => (h es hes).1) .nil
    exact readRecord_keeps hkeep (by simp) hentries

theorem Extraction.sorted_of_read {raw : Option Json} {e : Extraction}
    (h : Extraction.read raw = .ok e) : e.Sorted := by
  refine readNode_ensures (P := Extraction.Sorted) ?_ h
  simp only [Forms.Ensure, forms, List.forall_mem_cons, List.not_mem_nil, false_implies,
    implies_true, map_eq_ok, and_true]
  constructor
  · rintro j _ ⟨e, he, rfl⟩
    have hkeep : Keep regexFields fun e => Word.Holds e.index :=
      .other (fun _ _ h => h) (.of (.kept (by decide) fun _ _ => holds_of_readInt)
        (fun _ _ _ h => h) (.other (fun _ _ h => h) (.other (fun _ _ h => h) .nil)))
    exact readRecord_keeps hkeep (by decide) he
  · rintro j _ ⟨e, he, rfl⟩
    obtain ⟨wire, -, he⟩ := bind_eq_ok.1 he
    obtain ⟨lookup, hlookup, he⟩ := bind_eq_ok.1 he
    cases he
    exact (Lookup.sorted_of_read hlookup : lookup.Sorted)

theorem Dimension.sorted_of_read (raw : Option Json) (d : Dimension)
    (h : Dimension.read raw = .ok d) : d.Sorted := by
  have hforms : Forms.Ensure forms Dimension.Sorted := by
    simp only [Forms.Ensure, forms, List.forall_mem_cons, List.not_mem_nil, false_implies,
      implies_true, map_eq_ok, and_true]
    constructor
    · rintro j _ ⟨d, -, rfl⟩
      trivial
    · intro j d hd
      obtain ⟨wire, -, hd⟩ := bind_eq_ok.1 hd
      obtain ⟨function, hfunction, hd⟩ := bind_eq_ok.1 hd
      cases hd
      exact (Extraction.sorted_of_read hfunction : function.Sorted)
  unfold Dimension.read at h
  split at h
  · cases h
    trivial
  · exact readNode_ensures hforms h

theorem Dimension.fits_of_read (raw : Option Json) (d : Dimension)
    (h : Dimension.read raw = .ok d) : d.Fits :=
  (sorted_of_read raw d h).fits

theorem Context.keep_fields : Keep Context.fields Context.Fits :=
  .other (fun _ _ h => ⟨h.1, h.2, h.3⟩) (.of (.optional .int) (fun _ _ h h' => ⟨h', h.2, h.3⟩)
    (.of (.optional .int) (fun _ _ h h' => ⟨h.1, h', h.3⟩)
    (.of (.optional .int) (fun _ _ h h' => ⟨h.1, h.2, h'⟩)
    (.other (fun _ _ h => ⟨h.1, h.2, h.3⟩) (.other (fun _ _ h => ⟨h.1, h.2, h.3⟩)
    (.other (fun _ _ h => ⟨h.1, h.2, h.3⟩) (.other (fun _ _ h => ⟨h.1, h.2, h.3⟩) .nil)))))))

theorem Granularity.known_of_read {j : Json} {g : Granularity} (h : Granularity.read j = .ok g) :
    g ∈ Granularity.known := by
  obtain ⟨name, -, h⟩ := bind_eq_ok.1 h
  split at h
  · rename_i hname
    cases h
    exact List.mem_of_find?_eq_some hname
  · cases h

theorem NamedFilter.dated_of_read {j : Json} {n : NamedFilter} (h : NamedFilter.read j = .ok n) :
    ∀ f ∈ n.filter, ∀ i ∈ f.windows, i.Dated := by
  obtain ⟨wire, -, h⟩ := bind_eq_ok.1 h
  obtain ⟨filter, hfilter, h⟩ := bind_eq_ok.1 h
  cases h
  exact Filter.dated_of_readOptional hfilter

namespace Query

/-- Numbers and a granularity that a document can hold. -/
structure Wire.Fits (w : Wire) : Prop where
  limit : ∀ n ∈ w.limit, Word.Holds n
  threshold : ∀ n ∈ w.threshold, Word.Holds n
  context : ∀ c ∈ w.context, c.Fits
  granularity : ∀ g ∈ w.granularity, g ∈ Granularity.known

theorem keep_fields : Keep fields Wire.Fits := by
  have hother {α : Type} {name : String} {slot : Slot α} {set : Wire → α → Wire}
      {fs : List (Member Wire)} (hset : ∀ w a, (set w a).limit = w.limit ∧
        (set w a).threshold = w.threshold ∧ (set w a).context = w.context ∧
        (set w a).granularity = w.granularity) (h : Keep fs Wire.Fits) :
      Keep (.of name slot set :: fs) Wire.Fits := by
    refine .other (fun w a hw => ?_) h
    obtain ⟨hlimit, hthreshold, hcontext, hgranularity⟩ := hset w a
    exact ⟨by rw [hlimit]; exact hw.limit, by rw [hthreshold]; exact hw.threshold,
      by rw [hcontext]; exact hw.context, by rw [hgranularity]; exact hw.granularity⟩
  have hcontext : Slot.Ensures (Slot.optional (Slot.record Context.fields {}))
      fun v => ∀ c ∈ v, c.Fits :=
    .optional (.record Context.keep_fields ⟨by simp, by simp, by simp⟩)
  unfold fields
  iterate 9 refine hother (fun _ _ => ⟨rfl, rfl, rfl, rfl⟩) ?_
  refine .of (.optional fun _ _ _ => Granularity.known_of_read)
    (fun _ _ h h' => ⟨h.limit, h.threshold, h.context, h'⟩) ?_
  iterate 2 refine hother (fun _ _ => ⟨rfl, rfl, rfl, rfl⟩) ?_
  refine .of (.optional .int) (fun _ _ h h' => ⟨h', h.threshold, h.context, h.granularity⟩) ?_
  refine .of hcontext (fun _ _ h h' => ⟨h.limit, h.threshold, h', h.granularity⟩) ?_
  refine .of (.optional .int) (fun _ _ h h' => ⟨h.limit, h', h.context, h.granularity⟩) ?_
  iterate 8 refine hother (fun _ _ => ⟨rfl, rfl, rfl, rfl⟩) ?_
  exact .nil

structure Wire.Dated (w : Wire) : Prop where
  intervals : ∀ is ∈ w.intervals, ∀ i ∈ is, i.Dated
  sample1 : ∀ n ∈ w.sample1, ∀ f ∈ n.filter, ∀ i ∈ f.windows, i.Dated
  sample2 : ∀ n ∈ w.sample2, ∀ f ∈ n.filter, ∀ i ∈ f.windows, i.Dated
  successCriterion : ∀ n ∈ w.successCriterion, ∀ f ∈ n.filter, ∀ i ∈ f.windows, i.Dated

theorem keep_windows : Keep fields Wire.Dated := by
  have hsample : Slot.Ensures (Slot.optionalFresh NamedFilter.read)
      fun v => ∀ n ∈ v, ∀ f ∈ n.filter, ∀ i ∈ f.windows, i.Dated :=
    .optional fun _ _ _ => NamedFilter.dated_of_read
  unfold fields
  iterate 7 refine .other (fun _ _ h => ⟨h.1, h.2, h.3, h.4⟩) ?_
  refine .of Interval.slot_ensures (fun _ _ h h' => ⟨h', h.2, h.3, h.4⟩) ?_
  iterate 12 refine .other (fun _ _ h => ⟨h.1, h.2, h.3, h.4⟩) ?_
  refine .of hsample (fun _ _ h h' => ⟨h.1, h', h.3, h.4⟩) ?_
  refine .of hsample (fun _ _ h h' => ⟨h.1, h.2, h', h.4⟩) ?_
  exact .of hsample (fun _ _ h h' => ⟨h.1, h.2, h.3, h'⟩) .nil

/-- The windows that a query speaks of, wherever they stand in it. -/
def windows (q : Query) : List Interval :=
  q.intervals.getD [] ++ (q.filter.toList ++ q.steps.getD [] ++
    [q.sample1, q.sample2, q.successCriterion].filterMap (·.bind (·.filter))).flatMap
      Filter.windows ++ (q.aggregations.getD []).flatMap Aggregator.windows

section Windows

variable {q : Query} {i : Interval}

theorem mem_windows_of_intervals {is : List Interval} (his : is ∈ q.intervals) (hi : i ∈ is) :
    i ∈ q.windows := by
  simp only [windows, show q.intervals = some is from his, List.mem_append, Option.getD_some]
  exact .inl (.inl hi)

theorem mem_windows_of_steps {fs : List Filter} {f : Filter} (hfs : fs ∈ q.steps) (hf : f ∈ fs)
    (hi : i ∈ f.windows) : i ∈ q.windows := by
  simp only [windows, List.mem_append, List.mem_flatMap, show q.steps = some fs from hfs,
    Option.getD_some]
  exact .inl (.inr ⟨f, .inl (.inr hf), hi⟩)

theorem mem_windows_of_sample {sample : Option NamedFilter} {f : Filter}
    (hsample : sample ∈ [q.sample1, q.sample2, q.successCriterion])
    (hf : sample.bind (·.filter) = some f) (hi : i ∈ f.windows) : i ∈ q.windows := by
  simp only [windows, List.mem_append, List.mem_flatMap]
  exact .inl (.inr ⟨f, .inr (List.mem_filterMap.2 ⟨sample, hsample, hf⟩), hi⟩)

end Windows

/-- Numbers, tables and a granularity that a document can hold, whatever the windows are. -/
structure Spellable (q : Query) : Prop where
  granularity : q.granularity ∈ Granularity.known
  aggregations : ∀ as ∈ q.aggregations, ∀ a ∈ as, a.Fits
  postAggregations : ∀ ps ∈ q.postAggregations, ∀ p ∈ ps, p.Fits
  limit : ∀ n ∈ q.limit, Word.Holds n
  context : ∀ c ∈ q.context, c.Fits
  threshold : ∀ n ∈ q.threshold, Word.Holds n
  dimension : ∀ d ∈ q.dimension, d.Fits
  dimensions : ∀ ds ∈ q.dimensions, ∀ d ∈ ds, d.Fits

theorem Fits.spellable {q : Query} (h : q.Fits) : q.Spellable :=
  { h with aggregations := fun as has a ha => (h.aggregations as has a ha).1 }

/-- A query that fits into a document with all that it says in the tenant language. -/
structure Written (q : Query) : Prop extends q.Fits where
  steps : ∀ fs ∈ q.steps, ∀ f ∈ fs, ∀ i ∈ f.windows, i.Dated
  sample1 : ∀ n ∈ q.sample1, ∀ f ∈ n.filter, ∀ i ∈ f.windows, i.Dated
  sample2 : ∀ n ∈ q.sample2, ∀ f ∈ n.filter, ∀ i ∈ f.windows, i.Dated
  successCriterion : ∀ n ∈ q.successCriterion, ∀ f ∈ n.filter, ∀ i ∈ f.windows, i.Dated

/-- What is read from a document can be written into one. -/
theorem written_of_read {j : Json} {q : Query} (h : read j = .ok q) : q.Written := by
  obtain ⟨w, hw, h⟩ := bind_eq_ok.1 h
  have hfits : w.Fits := readRecord_keeps keep_fields ⟨by simp, by simp, by simp, by simp⟩ hw
  have hdated : w.Dated := readRecord_keeps keep_windows ⟨by simp, by simp, by simp, by simp⟩ hw
  split at h
  · rename_i queryType _
    split at h
    · rename_i granularity hgranularity
      obtain ⟨filter, hfilter, h⟩ := bind_eq_ok.1 h
      obtain ⟨aggregations, haggregations, h⟩ := bind_eq_ok.1 h
      obtain ⟨postAggregations, hpost, h⟩ := bind_eq_ok.1 h
      obtain ⟨steps, hsteps, h⟩ := bind_eq_ok.1 h
      obtain ⟨dimensions, hdimensions, h⟩ := bind_eq_ok.1 h
      obtain ⟨metric, -, h⟩ := bind_eq_ok.1 h
      obtain ⟨dimension, hdimension, h⟩ := bind_eq_ok.1 h
      cases h
      exact {
        filter := Filter.dated_of_readOptional (mapError_eq_ok.1 hfilter)
        intervals := hdated.intervals
        granularity := hfits.granularity _ hgranularity
        aggregations := readNodes_ensures (fun _ => Aggregator.fits_of_readWithin _ _)
          (mapError_eq_ok.1 haggregations)
        postAggregations := readNodes_ensures (fun _ => PostAggregator.fits_of_readWithin _ _)
          (mapError_eq_ok.1 hpost)
        limit := hfits.limit
        context := hfits.context
        threshold := hfits.threshold
        dimension := readOptionalNode_ensures Dimension.fits_of_read (mapError_eq_ok.1 hdimension)
        dimensions := readNodes_ensures Dimension.fits_of_read (mapError_eq_ok.1 hdimensions)
        steps := readNodes_ensures Filter.dated_of_read (mapError_eq_ok.1 hsteps)
        sample1 := hdated.sample1
        sample2 := hdated.sample2
        successCriterion := hdated.successCriterion }
    · cases h
  · cases h

end Query

end TenantQuery
