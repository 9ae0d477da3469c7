import TenantQuery.Proofs.Calendar.Unit
import TenantQuery.Proofs.Compiler.Phases
import TenantQuery.Proofs.Expansion.Settled

namespace TenantQuery

open Outcome

structure Instant.SameMonth (t t' : Instant) : Prop where
  year : t.date.year = t'.date.year
  month : t.date.month = t'.date.month

namespace Component

def isMonthly : Component → Bool
  | .month | .quarter | .year => true
  | _ => false

variable {c : Component}

theorem shifts_of_isMonthly (h : c.isMonthly = true) (n : Int) : c.Shifts n := by
  refine ⟨?_, ?_⟩ <;> rintro rfl <;> cases h

theorem number_of_sameMonth (h : c.isMonthly = true) {t t' : Instant} (ht : t.SameMonth t') :
    c.number t = c.number t' := by
  have hmonth : t.monthNumber = t'.monthNumber := by
    rw [Instant.monthNumber, Instant.monthNumber, ht.year, ht.month]
  cases c with
  | month => exact hmonth
  | quarter | year => simp only [number, hmonth]
  | hour | day | week | unset => cases h

end Component

/-- A window whose ends are given in months or longer units. -/
structure RelativeInterval.Monthly (r : RelativeInterval) : Prop where
  start : r.start.component.isMonthly = true
  stop : r.stop.component.isMonthly = true

theorem RelativeInterval.Monthly.resolve_congr {r : RelativeInterval} (h : r.Monthly)
    {now now' : Instant} (hnow : now.SameMonth now') : r.resolve now = r.resolve now' := by
  have hdate {d : RelativeDate} (hd : d.component.isMonthly = true) :
      d.resolve now = d.resolve now' :=
    d.resolve_congr (Component.shifts_of_isMonthly hd d.offset) (Component.number_of_sameMonth hd hnow)
  rw [resolve, resolve, hdate h.start, hdate h.stop]

namespace Expansion

variable (userField : String) (now now' : Instant)

theorem lowerAggregator_clock (a : Aggregator) :
    lowerAggregator ⟨userField, now⟩ a = lowerAggregator ⟨userField, now'⟩ a := by
  induction a with
  | filtered filter inner name ih => simp only [lowerAggregator, ih]
  | userCount name | eventCount name | histogram a => rfl
  | count _ | column _ _ | thetaSketch _ | hyperUnique _ | cardinality _ | quantilesSketch _ => rfl

theorem lowerConvenience_clock (aggregators : Option (List Aggregator))
    (postAggregators : Option (List PostAggregator)) :
    lowerConvenience ⟨userField, now⟩ aggregators postAggregators =
      lowerConvenience ⟨userField, now'⟩ aggregators postAggregators := by
  have hone : lowerAggregator ⟨userField, now⟩ = lowerAggregator ⟨userField, now'⟩ :=
    funext (lowerAggregator_clock userField now now')
  cases aggregators with
  | none => rfl
  | some as => simp only [lowerConvenience, hone]

variable {userField now now'} {q : Query}

theorem Retention.window_clock
    (h : q.intervals = none → ∀ r rest, q.relativeIntervals = some (r :: rest) →
      r.Monthly ∧ now.SameMonth now') :
    window ⟨userField, now⟩ q = window ⟨userField, now'⟩ q := by
  cases hintervals : q.intervals with
  | some is => simp only [window, hintervals]
  | none =>
      rw [window_of_relative _ hintervals, window_of_relative _ hintervals]
      cases hrelative : q.relativeIntervals with
      | none => rfl
      | some rs =>
          cases rs with
          | nil => rfl
          | cons r rest =>
              obtain ⟨hmonthly, hnow⟩ := h hintervals r rest hrelative
              simp only [Option.getD_some, List.map_cons, hmonthly.resolve_congr hnow]

end Expansion

namespace Compiler

variable (config : Config) {now now' : Instant} {q : Query}

theorem expand_clock
    (h : q.queryType = .retention → q.intervals = none → ∀ r rest,
      q.relativeIntervals = some (r :: rest) → r.Monthly ∧ now.SameMonth now') :
    (⟨config, now⟩ : Compiler).expand q = (⟨config, now'⟩ : Compiler).expand q := by
  unfold expand
  cases hq : q.queryType with
  | retention =>
      have hwindow : Expansion.Retention.window (options ⟨config, now⟩) q =
          Expansion.Retention.window (options ⟨config, now'⟩) q :=
        Expansion.Retention.window_clock (h hq)
      simp only [Expansion.retention, hwindow]
      rfl
  | funnel | experiment => rfl
  | timeseries | groupBy | topN | scan | timeBoundary => rfl

theorem lower_clock
    (h : q.queryType = .retention → q.intervals = none → ∀ r rest,
      q.relativeIntervals = some (r :: rest) → r.Monthly ∧ now.SameMonth now') :
    (⟨config, now⟩ : Compiler).lower q = (⟨config, now'⟩ : Compiler).lower q := by
  have hlower (as : Option (List Aggregator)) (ps : Option (List PostAggregator)) :
      Expansion.lowerConvenience (options ⟨config, now⟩) as ps =
        Expansion.lowerConvenience (options ⟨config, now'⟩) as ps :=
    Expansion.lowerConvenience_clock config.userField now now' as ps
  simp only [lower, expand_clock config h, hlower]

/-- Under two clocks a query is refused for the same reason or gets the same document, hash and
records, unless it is a retention query over a relative window that days or the time of day count
for, or the clocks are in different months. -/
theorem precompile_clock (config : Config) (now now' : Instant) (q : Query)
    (h : q.queryType = .retention → q.intervals = none → ∀ r rest,
      q.relativeIntervals = some (r :: rest) → r.Monthly ∧ now.SameMonth now')
    (organization : List Uuid) (superOrg : Bool) :
    (⟨config, now⟩ : Compiler).precompile q organization superOrg =
      (⟨config, now'⟩ : Compiler).precompile q organization superOrg := by
  rw [precompile, precompile, lower_clock config h]
  rfl

def sinceLastQuarter : Query where
  queryType := .retention
  granularity := .all
  baseFilters := some .noFilter
  relativeIntervals := some [⟨⟨.quarter, -1, .beginning⟩, ⟨.month, 0, .ending⟩⟩]

theorem precompile_clock_february :
    (Instant.ofFields 2024 2 1 0 0 0 0).SameMonth (.ofFields 2024 2 29 23 59 59 0) ∧
    RelativeInterval.Monthly ⟨⟨.quarter, -1, .beginning⟩, ⟨.month, 0, .ending⟩⟩ ∧
    (⟨.standard, .ofFields 2024 2 1 0 0 0 0⟩ : Compiler).precompile sinceLastQuarter [] true =
      (⟨.standard, .ofFields 2024 2 29 23 59 59 0⟩ : Compiler).precompile sinceLastQuarter []
        true := by
  have hmonth : (Instant.ofFields 2024 2 1 0 0 0 0).SameMonth (.ofFields 2024 2 29 23 59 59 0) :=
    ⟨by decide, by decide⟩
  have hmonthly : RelativeInterval.Monthly ⟨⟨.quarter, -1, .beginning⟩, ⟨.month, 0, .ending⟩⟩ :=
    ⟨rfl, rfl⟩
  refine ⟨hmonth, hmonthly, precompile_clock .standard _ _ sinceLastQuarter ?_ [] true⟩
  rintro - - r rest hrelative
  cases hrelative
  exact ⟨hmonthly, hmonth⟩

end Compiler

end TenantQuery
