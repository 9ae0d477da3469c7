import Mathlib.Data.List.Forall2
import TenantQuery.Proofs.Expansion.Histogram
import TenantQuery.Proofs.Occurrence

namespace TenantQuery

namespace Aggregator

def wrappers : Aggregator → List (Filter × Option String)
  | .filtered filter inner name => (filter, name) :: inner.wrappers
  | _ => []

theorem isLowered_iff (a : Aggregator) :
    a.isLowered = true ↔ ∀ b, Occurs b a → b.isConvenience = false := by
  induction a with
  | filtered filter inner name ih =>
      have hself : (filtered filter inner name).isConvenience = false := rfl
      rw [forall_occurs_filtered, and_iff_right hself]
      exact ih
  | _ => simp [forall_occurs_of_ne_filtered, isLowered, isConvenience]

theorem isPlainHistogram_eq_false {a : Aggregator} (h : a.histogram? = none) :
    a.isPlainHistogram = false := by
  induction a with
  | filtered filter inner name ih =>
      cases name with
      | none => exact ih h
      | some name => rfl
  | histogram a => cases h
  | _ => rfl

end Aggregator

namespace Expansion

open Aggregator (Occurs)

structure LowersTo (a b : Aggregator) : Prop where
  complete : ∀ x, Occurs x b → x.isConvenience = false
  wrappers : b.wrappers = a.wrappers
  unchanged : (∀ x, Occurs x a → x.isConvenience = false) → b = a
  outputName : a.histogram? = none → b.outputName = a.outputName

section

variable (options : Options)

theorem wrappers_lowerAggregator (a : Aggregator) :
    (lowerAggregator options a).1.wrappers = a.wrappers := by
  induction a with
  | filtered filter inner name ih => exact congrArg ((filter, name) :: ·) ih
  | _ => rfl

theorem lowersTo_lowerAggregator (a : Aggregator) : LowersTo a (lowerAggregator options a).1 where
  complete := (Aggregator.isLowered_iff _).1 (isLowered_lowerAggregator options a)
  wrappers := wrappers_lowerAggregator options a
  unchanged h := by
    rw [lowerAggregator_of_isLowered options ((Aggregator.isLowered_iff a).2 h)]
  outputName h := by
    rw [outputName_lowerAggregator, Aggregator.isPlainHistogram_eq_false h]
    rfl

theorem filterMap_lowerAggregator (as : List Aggregator) :
    as.filterMap (fun a => (lowerAggregator options a).2) =
      (as.filterMap Aggregator.histogram?).map fun h =>
        .sketchHistogram (Aggregator.histogram h).outputName (PostAggregator.access histogramSketch)
          h.bins := by
  rw [List.map_filterMap]
  exact congrArg (as.filterMap ·) (funext (lowerAggregator_snd options))

theorem lowerConvenience_snd_of_no_histogram {aggregators : Option (List Aggregator)}
    {posts : Option (List PostAggregator)}
    (h : (aggregators.getD []).filterMap Aggregator.histogram? = []) :
    (lowerConvenience options aggregators posts).2 = posts := by
  cases aggregators with
  | none => rfl
  | some as =>
      have hadded : (as.map (lowerAggregator options)).filterMap (·.2) = [] := by
        rw [List.filterMap_map]
        refine (filterMap_lowerAggregator options as).trans ?_
        rw [show as.filterMap Aggregator.histogram? = [] from h, List.map_nil]
      simp only [lowerConvenience, hadded, List.isEmpty_nil, if_true]

end

/-- Every aggregator is lowered in its place. After the given post-aggregators comes one for each
histogram, in order, with its name and its bins; lowering once more changes nothing. -/
theorem lowerConvenience_conservative (options : Options) (aggregators : Option (List Aggregator))
    (posts : Option (List PostAggregator)) :
    ∃ lowered posts', lowerConvenience options aggregators posts = (lowered, posts') ∧
      Option.Rel (List.Forall₂ LowersTo) aggregators lowered ∧
      posts'.getD [] = posts.getD [] ++
        ((aggregators.getD []).filterMap Aggregator.histogram?).map (fun h =>
          .sketchHistogram (h.name.getD "Histogram") (PostAggregator.access "_histogramSketch")
            ⟨h.bins.splitPoints, h.bins.numBins⟩) ∧
      ((aggregators.getD []).filterMap Aggregator.histogram? = [] → posts' = posts) ∧
      lowerConvenience options lowered posts' = (lowered, posts') := by
  refine ⟨(lowerConvenience options aggregators posts).1,
    (lowerConvenience options aggregators posts).2, rfl, ?_, ?_, ?_, ?_⟩
  · rw [lowerConvenience_fst]
    cases aggregators with
    | none => exact .none
    | some as =>
        refine .some (List.forall₂_map_right_iff.2 (List.forall₂_same.2 fun a _ => ?_))
        exact lowersTo_lowerAggregator options a
  · rw [lowerConvenience_snd, filterMap_lowerAggregator]
    rfl
  · exact lowerConvenience_snd_of_no_histogram options
  · exact lowerConvenience_of_isLowered options _
      (isLowered_lowerConvenience options aggregators posts)

end Expansion

end TenantQuery
