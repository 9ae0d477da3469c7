import TenantQuery.Proofs.Json.Ranged
import TenantQuery.Proofs.Query.Document

namespace TenantQuery

open Json Outcome

theorem Predicate.ranged (p : Predicate) : p.encode.Ranged := by
  cases p <;> simp [encode, members, Interval.encode]

theorem Filter.ranged (f : Filter) : f.encode.Ranged := by
  induction f using Filter.induction with
  | test p => exact p.ranged
  | constant b => cases b <;> simp [encode]
  | not f ih => simpa [encode] using ih
  | absent op => simp [encode]
  | junction op fs ih => simpa [encode_junction] using ih

theorem Bins.allRanged {bins : Bins} (h : bins.Fits) : AllRanged (Aggregator.binMembers bins) := by
  rw [Aggregator.binMembers, allRanged_append, allRanged_ifAny, allRanged_ifSome]
  exact ⟨fun xs hxs x hx => ranged_ofDouble (h.splitPoints xs hxs x hx),
    fun n hn => ranged_ofInt (h.numBins n hn)⟩

theorem Aggregator.ranged (a : Aggregator) (h : a.Fits) : a.encode.Ranged := by
  induction a with
  | filtered filter inner name ih => simp [encode, filter.ranged, ih h]
  | histogram a => simpa [encode] using Bins.allRanged h
  | thetaSketch a =>
      have hsize := fun n hn => ranged_ofInt (h n hn)
      simpa [encode, columnMembers] using hsize
  | quantilesSketch a =>
      have hk := fun n hn => ranged_ofInt (h.1 n hn)
      have hlength := fun n hn => ranged_ofInt (h.2 n hn)
      simpa [encode, columnMembers] using ⟨hk, hlength⟩
  | count _ | column _ _ | hyperUnique _ | cardinality _ | userCount _ | eventCount _ =>
      simp [encode, columnMembers]

theorem PostAggregator.ranged (p : PostAggregator) (h : p.Fits) : p.encode.Ranged := by
  induction p using PostAggregator.induction with
  | fieldAccess _ _ | finalizingFieldAccess _ _ | expression _ _ _ | hyperUniqueCardinality _ _ =>
      simp [encode, Aggregator.columnMembers]
  | constant name value => simpa [encode] using ranged_ofDouble h
  | arithmetic name fn operands ordering ih =>
      have hoperands := fun ps hps p hp => ih ps hps p hp (fitOperands_iff.1 h ps hps p hp)
      simpa [encode_arithmetic] using hoperands
  | extremum kind name operands ih =>
      have hoperands := fun ps hps p hp => ih ps hps p hp (fitOperands_iff.1 h ps hps p hp)
      simpa [encode_extremum] using hoperands
  | sketchSetOp name operation size operands ih =>
      have hsize := fun n hn => ranged_ofInt (h.1 n hn)
      have hoperands := fun ps hps p hp => ih ps hps p hp (fitOperands_iff.1 h.2 ps hps p hp)
      simpa [encode_sketchSetOp] using ⟨hsize, hoperands⟩
  | sketchEstimate name operand ih => simpa [encode] using ih h
  | sketchHistogram name operand bins ih => simpa [encode] using ⟨ih h.1, Bins.allRanged h.2⟩
  | zScore name size1 success1 size2 success2 ih1 ih2 ih3 ih4 =>
      obtain ⟨h1, h2, h3, h4⟩ := h
      simp [encode, ih1 h1, ih2 h2, ih3 h3, ih4 h4]
  | pValue name score ih => simpa [encode] using ih h

theorem Json.ranged_entries (entries : List (String × String)) :
    (entriesObject entries).Ranged := by
  rw [entriesObject, ranged_object]
  intro m hm
  obtain ⟨e, -, rfl⟩ := List.mem_map.1 hm
  exact .string e.2

theorem Lookup.ranged (l : Lookup) : l.encode.Ranged := by
  match l with
  | .registered _ | .inline none => simp [encode]
  | .inline (some entries) =>
      rw [encode_inline, ranged_tagged, allRanged_cons, and_iff_left allRanged_nil]
      exact ranged_entries entries

theorem Dimension.ranged {d : Dimension} (h : d.Fits) : d.encode.Ranged := by
  match d with
  | .plain d => simp [encode, plainMembers]
  | .extracted d (.regex e) =>
      have hindex : (ofInt e.index).Ranged := ranged_ofInt h
      simp [encode, plainMembers, Extraction.encode, hindex]
  | .extracted d (.lookup e) =>
      simp [encode, plainMembers, Extraction.encode, e.lookup.ranged]

theorem Metric.ranged (m : Metric) : m.encode.Ranged := by
  induction m with
  | numeric _ | dimension _ _ => simp [encode]
  | inverted m ih => simpa [encode] using ih

theorem Context.ranged {c : Context} (h : c.Fits) : c.encode.Ranged := by
  have hpriority := fun n hn => ranged_ofInt (h.priority n hn)
  have htimestamp := fun n hn => ranged_ofInt (h.timestamp n hn)
  have hduration := fun n hn => ranged_ofInt (h.cacheValidityDuration n hn)
  simpa [encode] using ⟨hpriority, htimestamp, hduration⟩

theorem RelativeInterval.ranged {r : RelativeInterval} (h : r.Fits) : r.encode.Ranged := by
  simp [encode, RelativeDate.encode, Component.encode, ranged_ofInt h.start, ranged_ofInt h.stop]

theorem NamedFilter.ranged (n : NamedFilter) : n.encode.Ranged := by
  simpa [encode] using fun f _ => f.ranged

namespace Query

variable {q : Query}

theorem offsets_of_read {j : Json} (h : read j = .ok q) :
    ∀ rs ∈ q.relativeIntervals, ∀ r ∈ rs, r.Fits := by
  obtain ⟨w, hw, h⟩ := bind_eq_ok.1 h
  have hoffsets := readRecord_keeps keep_offsets (by simp) hw
  split at h
  · split at h
    · obtain ⟨filter, -, h⟩ := bind_eq_ok.1 h
      obtain ⟨aggregations, -, h⟩ := bind_eq_ok.1 h
      obtain ⟨postAggregations, -, h⟩ := bind_eq_ok.1 h
      obtain ⟨steps, -, h⟩ := bind_eq_ok.1 h
      obtain ⟨dimensions, -, h⟩ := bind_eq_ok.1 h
      obtain ⟨metric, -, h⟩ := bind_eq_ok.1 h
      obtain ⟨dimension, -, h⟩ := bind_eq_ok.1 h
      cases h
      exact hoffsets
    · cases h
  · cases h

theorem Spellable.ranged (h : q.Spellable)
    (hoffsets : ∀ rs ∈ q.relativeIntervals, ∀ r ∈ rs, r.Fits) : q.encode.Ranged := by
  rw [encode_eq_members, ranged_object]
  simp only [members, allRanged_cons, allRanged_append, allRanged_ifSome, allRanged_ifAny,
    allRanged_ifText, Ranged.string, Ranged.bool, Granularity.encode, Interval.encode, implies_true,
    true_and]
  exact ⟨fun f _ => f.ranged, fun rs hrs r hr => RelativeInterval.ranged (hoffsets rs hrs r hr),
    fun as has a ha => a.ranged (h.aggregations as has a ha),
    fun ps hps p hp => p.ranged (h.postAggregations ps hps p hp),
    fun n hn => ranged_ofInt (h.limit n hn), fun c hc => Context.ranged (h.context c hc),
    fun n hn => ranged_ofInt (h.threshold n hn), fun m _ => m.ranged,
    fun d hd => Dimension.ranged (h.dimension d hd),
    fun ds hds d hd => Dimension.ranged (h.dimensions ds hds d hd), fun _ _ f _ => f.ranged,
    fun n _ => n.ranged, fun n _ => n.ranged, fun n _ => n.ranged⟩

end Query

end TenantQuery
