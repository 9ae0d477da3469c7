import TenantQuery.Proofs.Expansion.Shape
import TenantQuery.Validation

namespace TenantQuery

namespace Aggregator

def histogram? : Aggregator → Option Histogram
  | .histogram h => some h
  | .filtered _ inner _ => inner.histogram?
  | _ => none

/-- A histogram that no filtered aggregator around it gives another name. -/
def isPlainHistogram : Aggregator → Bool
  | .histogram _ => true
  | .filtered _ inner none => inner.isPlainHistogram
  | _ => false

end Aggregator

namespace Expansion

section Lowering

variable (options : Options)

theorem lowerAggregator_snd (a : Aggregator) :
    (lowerAggregator options a).2 = a.histogram?.map fun h =>
      .sketchHistogram (Aggregator.histogram h).outputName (PostAggregator.access histogramSketch)
        h.bins := by
  induction a with
  | filtered filter inner name ih => exact ih
  | histogram h => rfl
  | userCount _ | eventCount _ | count _ | column _ _ | thetaSketch _ | hyperUnique _ => rfl
  | cardinality _ | quantilesSketch _ => rfl

theorem outputName_lowerAggregator (a : Aggregator) :
    (lowerAggregator options a).1.outputName =
      if a.isPlainHistogram then histogramSketch else a.outputName := by
  induction a with
  | filtered filter inner name ih =>
      cases name with
      | none => exact ih
      | some name => rfl
  | histogram h => rfl
  | userCount _ | eventCount _ | count _ | column _ _ | thetaSketch _ | hyperUnique _ => rfl
  | cardinality _ | quantilesSketch _ => rfl

variable {options} {as : List Aggregator} (hfree : ∀ a ∈ as, a.outputName ≠ histogramSketch)

include hfree

theorem outputName_lowerAggregator_iff {a : Aggregator} (ha : a ∈ as) :
    (lowerAggregator options a).1.outputName = histogramSketch ↔ a.isPlainHistogram = true := by
  rw [outputName_lowerAggregator]
  cases hplain : a.isPlainHistogram with
  | true => simp
  | false => simp [hfree a ha]

theorem filter_lowered :
    (as.map fun a => (lowerAggregator options a).1).filter (fun b => b.outputName = histogramSketch) =
      (as.filter Aggregator.isPlainHistogram).map fun a => (lowerAggregator options a).1 := by
  rw [List.filter_map]
  refine congrArg _ (List.filter_congr fun a ha => ?_)
  rw [Function.comp_apply, Bool.eq_iff_iff, decide_eq_true_eq]
  exact outputName_lowerAggregator_iff hfree ha

theorem filter_lowered_eq_singleton {a : Aggregator} (ha : a ∈ as) :
    (as.map fun a => (lowerAggregator options a).1).filter (fun b => b.outputName = histogramSketch) =
      [(lowerAggregator options a).1] ↔ as.filter Aggregator.isPlainHistogram = [a] := by
  rw [filter_lowered hfree]
  constructor
  · intro h
    obtain ⟨b, hb, hlowered⟩ := List.map_eq_singleton_iff.1 h
    have hmem : b ∈ as.filter Aggregator.isPlainHistogram := by simp [hb]
    obtain ⟨hb', hplain⟩ := List.mem_filter.1 hmem
    have hname : (lowerAggregator options a).1.outputName = histogramSketch := by
      rw [← hlowered]
      exact (outputName_lowerAggregator_iff hfree hb').2 hplain
    have ha' : a ∈ as.filter Aggregator.isPlainHistogram :=
      List.mem_filter.2 ⟨ha, (outputName_lowerAggregator_iff hfree ha).1 hname⟩
    rw [hb, List.mem_singleton] at ha'
    rw [hb, ha']
  · intro h
    rw [h, List.map_singleton]

end Lowering

/-- Every histogram brings a post-aggregator of its own, which comes after the given ones. This reads
the sketch of the histogram, and of no other, exactly if the histogram is plain and no other one
is. -/
theorem histogram_reads_own_sketch_iff (options : Options) (as : List Aggregator)
    (posts : Option (List PostAggregator)) (hfree : ∀ a ∈ as, a.outputName ≠ "_histogramSketch") :
    (lowerConvenience options (some as) posts).1 =
        some (as.map fun a => (lowerAggregator options a).1) ∧
      (lowerConvenience options (some as) posts).2.getD [] =
        posts.getD [] ++ as.filterMap (fun a => (lowerAggregator options a).2) ∧
      ∀ lowered ∈ (lowerConvenience options (some as) posts).1, ∀ a ∈ as, ∀ p,
        (lowerAggregator options a).2 = some p → ∃ h sketch, a.histogram? = some h ∧
          p = .sketchHistogram (Aggregator.histogram h).outputName (PostAggregator.access sketch)
            h.bins ∧
          (lowered.filter (fun b => b.outputName = sketch) = [(lowerAggregator options a).1] ↔
            as.filter Aggregator.isPlainHistogram = [a]) := by
  have hlowered : (lowerConvenience options (some as) posts).1 =
      some (as.map fun a => (lowerAggregator options a).1) := by
    rw [lowerConvenience_fst, Option.map_some]
  refine ⟨hlowered, ?_, ?_⟩
  · rw [lowerConvenience_snd, Option.getD_some]
  · rw [hlowered]
    rintro lowered hmem a ha p hp
    cases hmem
    rw [lowerAggregator_snd, Option.map_eq_some_iff] at hp
    obtain ⟨h, hh, rfl⟩ := hp
    exact ⟨h, histogramSketch, hh, rfl, filter_lowered_eq_singleton hfree ha⟩

def shortOnIos : Aggregator :=
  .filtered (.selector "os" "ios") (.histogram ⟨some "Short", {}⟩) none

def longOnAndroid : Aggregator :=
  .filtered (.selector "os" "android") (.histogram ⟨some "Long", {}⟩) (some "Android")

theorem histogram_reads_own_sketch_shortOnIos :
    ∃ lowered, (lowerConvenience ⟨"", ⟨0⟩⟩ (some [.count "n", shortOnIos, longOnAndroid]) none).1 =
        some lowered ∧
      lowered.filter (fun b => b.outputName = "_histogramSketch") =
        [(lowerAggregator ⟨"", ⟨0⟩⟩ shortOnIos).1] ∧
      (lowerAggregator ⟨"", ⟨0⟩⟩ longOnAndroid).1 ∉
        lowered.filter (fun b => b.outputName = "_histogramSketch") := by
  obtain ⟨hlowered, -, hreads⟩ := histogram_reads_own_sketch_iff ⟨"", ⟨0⟩⟩
    [.count "n", shortOnIos, longOnAndroid] none (by decide)
  obtain ⟨h, sketch, -, hpost, hown⟩ := hreads _ hlowered shortOnIos (by simp) _ rfl
  simp only [PostAggregator.sketchHistogram.injEq, PostAggregator.access,
    PostAggregator.fieldAccess.injEq, true_and] at hpost
  obtain ⟨-, rfl, -⟩ := hpost
  have hfilter := hown.2 rfl
  refine ⟨_, hlowered, hfilter, fun hmem => ?_⟩
  have hhidden : (lowerAggregator ⟨"", ⟨0⟩⟩ longOnAndroid).1.outputName = "_histogramSketch" :=
    of_decide_eq_true (List.mem_filter.1 hmem).2
  exact absurd hhidden (by decide)

theorem histogram_reads_shared_sketch :
    ([Aggregator.histogram ⟨some "Long", {}⟩, shortOnIos].map Aggregator.outputName).Nodup ∧
      (∀ a ∈ [Aggregator.histogram ⟨some "Long", {}⟩, shortOnIos, longOnAndroid],
        a.outputName ≠ "_histogramSketch") ∧
      (∃ lowered added,
        lowerConvenience ⟨"", ⟨0⟩⟩ (some [.histogram ⟨some "Long", {}⟩, shortOnIos]) none =
          (some lowered, some added) ∧
        (lowered.filter fun b => b.outputName = "_histogramSketch").length = 2 ∧
        validate none lowered added = [.duplicateName "_histogramSketch"]) ∧
      ∃ lowered added,
        lowerConvenience ⟨"", ⟨0⟩⟩ (some [longOnAndroid]) none = (some lowered, some added) ∧
        (lowered.filter fun b => b.outputName = "_histogramSketch").length = 0 ∧
        validate none lowered added = [.unresolved "_histogramSketch"] := by
  refine ⟨by decide, by decide, ⟨_, _, rfl, ?_, ?_⟩, ⟨_, _, rfl, ?_, ?_⟩⟩
  · decide
  · decide
  · decide
  · decide

end Expansion

end TenantQuery
