import Mathlib.Tactic.Ring
import TenantQuery.Proofs.Calendar.Month

namespace TenantQuery.Instant

open Calendar

variable {t : Instant}

theorem firstNano_eq : firstNano = -9223372028741760000000000000 := by
  decide

theorem nanosInAll_eq : nanosInAll = 18446744073709551616000000000 := by
  decide

theorem representable_wrap (t : Instant) : t.wrap.Representable := by
  simp only [Representable, wrap, nanosInAll_eq]
  omega

theorem wrap_of_representable (h : t.Representable) : t.wrap = t := by
  obtain ⟨hlow, hhigh⟩ := h
  rw [wrap, Int.ediv_eq_zero_of_lt (Int.sub_nonneg_of_le hlow) (Int.sub_left_lt_of_lt_add hhigh),
    Int.zero_mul, Int.sub_zero]

theorem representable_of_year (h : firstYear < t.date.year) (h' : t.date.year < -firstYear) :
    t.Representable := by
  obtain ⟨hbegun, hended⟩ := yearOfDay_spec (t.day + epochDay)
  rw [← year_eq] at hbegun hended
  simp only [firstYear, day, daysBeforeYear, epochDay, nanosPerDay, nanosPerSecond]
    at h h' hbegun hended
  rw [Representable, firstNano_eq, nanosInAll_eq]
  omega

/-- A year that shifting by months does not take out of reach. -/
def Moderate (t : Instant) : Prop :=
  -1000000000 ≤ t.date.year ∧ t.date.year ≤ 1000000000

instance (t : Instant) : Decidable t.Moderate :=
  inferInstanceAs (Decidable (_ ∧ _))

theorem Moderate.representable (h : t.Moderate) : t.Representable := by
  obtain ⟨hlow, hhigh⟩ := h
  apply representable_of_year <;> simp only [firstYear] <;> omega

theorem Representable.year (h : t.Representable) :
    firstYear ≤ t.date.year ∧ t.date.year ≤ 292277026854 := by
  obtain ⟨hbegun, hended⟩ := yearOfDay_spec (t.day + epochDay)
  rw [← year_eq] at hbegun hended
  rw [Representable, firstNano_eq, nanosInAll_eq] at h
  simp only [firstYear, day, daysBeforeYear, epochDay, nanosPerDay, nanosPerSecond]
    at hbegun hended ⊢
  omega

theorem Representable.holds_year (h : t.Representable) : Word.Holds t.date.year := by
  have hyear := h.year
  simp only [firstYear, Word.Holds, Word.half] at hyear ⊢
  omega

theorem wrapYear_eq {year month : Int} (hpos : 1 ≤ month) (hle : month ≤ 12)
    (hlow : firstYear < year ∨ firstYear = year ∧ 3 ≤ month) (hhigh : year < Word.half) :
    wrapYear year month = year := by
  simp only [wrapYear, firstYear, Word.half, Word.count] at hlow hhigh ⊢
  split <;> omega

/-- Dates from the first day of the calendar on. -/
theorem firstYear_le {d : Date} (hvalid : d.Valid)
    (h : dayNumber firstYear 3 1 ≤ dayNumber d.year d.month d.day) :
    firstYear < d.year ∨ firstYear = d.year ∧ 3 ≤ d.month := by
  have hyear : firstYear ≤ d.year := by
    have hmono := yearOfDay_mono (Int.add_le_add_right h epochDay)
    have hfirst : yearOfDay (dayNumber firstYear 3 1 + epochDay) = firstYear := by decide
    have hself : yearOfDay (dayNumber d.year d.month d.day + epochDay) = d.year :=
      congrArg Date.year (dateOf_dayNumber hvalid)
    rwa [hfirst, hself] at hmono
  rcases Int.lt_or_eq_of_le hyear with hlt | heq
  · exact .inl hlt
  · refine .inr ⟨heq, Int.not_lt.1 fun hmonth => ?_⟩
    -- The months before March end before the calendar begins.
    have hpos := hvalid.month_pos
    have hend := daysBeforeMonth_add d.year d.month hpos hvalid.month_le
    have hmono := daysBeforeMonth_mono d.year (show 1 ≤ d.month + 1 by omega)
      (show d.month + 1 ≤ 3 by omega) (by decide)
    have hlast := hvalid.day_le
    rw [if_neg (by omega)] at hend
    rw [heq] at h
    simp only [dayNumber] at h
    omega

theorem ofFields_eq_total {d : Date} {hour minute second nanos : Int} (hvalid : d.Valid)
    (hlow : firstYear < d.year ∨ firstYear = d.year ∧ 3 ≤ d.month) (hhigh : d.year < Word.half)
    (h : (total d.year d.month d.day hour minute second nanos).Representable) :
    ofFields d.year d.month d.day hour minute second nanos =
      total d.year d.month d.day hour minute second nanos := by
  rw [ofFields, wrapYear_eq hvalid.month_pos hvalid.month_le hlow hhigh, wrap_of_representable h]

def hourOf (t : Instant) : Nat := (t.timeOfDay / nanosPerSecond / 3600).toNat
def minuteOf (t : Instant) : Nat := (t.timeOfDay / nanosPerSecond / 60 % 60).toNat
def secondOf (t : Instant) : Nat := (t.timeOfDay / nanosPerSecond % 60).toNat
def milliOf (t : Instant) : Nat := (t.subsecond / 1000000).toNat

theorem clock_lt (t : Instant) :
    t.hourOf < 24 ∧ t.minuteOf < 60 ∧ t.secondOf < 60 ∧ t.milliOf < 1000 := by
  simp only [hourOf, minuteOf, secondOf, milliOf, timeOfDay, subsecond, nanosPerDay, nanosPerSecond]
  omega

/-- The fields of an instant give back its whole seconds. -/
theorem total_clock (t : Instant) (nanos : Int) :
    total t.date.year t.date.month t.date.day t.hourOf t.minuteOf t.secondOf nanos =
      ⟨t.unixSeconds * nanosPerSecond + nanos⟩ := by
  obtain ⟨⟨hmonth, hmonth', -, -⟩, hnumber⟩ := dateOf_spec t.day
  change 1 ≤ t.date.month at hmonth
  change t.date.month ≤ 12 at hmonth'
  change dayNumber t.date.year t.date.month t.date.day = t.day at hnumber
  have hcarry : (t.date.month - 1) / 12 = 0 ∧ (t.date.month - 1) % 12 + 1 = t.date.month := by omega
  simp only [total, hcarry, Int.add_zero, hnumber]
  simp only [mk.injEq, day, hourOf, minuteOf, secondOf, timeOfDay, unixSeconds, nanosPerDay,
    nanosPerSecond]
  omega

theorem representable_of_unixSeconds {u : Instant} (ht : t.Representable)
    (h : u.unixSeconds = t.unixSeconds) : u.Representable := by
  simp only [Representable, firstNano_eq, nanosInAll_eq, unixSeconds, nanosPerSecond] at ht h ⊢
  omega

section

variable {hour minute second nanos : Int} (hhour : 0 ≤ hour ∧ hour < 24)
  (hminute : 0 ≤ minute ∧ minute < 60) (hsecond : 0 ≤ second ∧ second < 60)
  (hnanos : 0 ≤ nanos ∧ nanos < 10 ^ 9)

include hhour hminute hsecond hnanos

theorem day_total {d : Date} (hvalid : d.Valid) :
    (total d.year d.month d.day hour minute second nanos).day =
      dayNumber d.year d.month d.day := by
  have hmonth := hvalid.month_pos
  have hmonth' := hvalid.month_le
  have hcarry : (d.month - 1) / 12 = 0 ∧ (d.month - 1) % 12 + 1 = d.month := by omega
  simp only [total, hcarry, Int.add_zero, day, nanosPerDay, nanosPerSecond]
  omega

theorem date_total {d : Date} (hvalid : d.Valid) :
    (total d.year d.month d.day hour minute second nanos).date = d := by
  rw [date, day_total hhour hminute hsecond hnanos hvalid, dateOf_dayNumber hvalid]

theorem clock_total (year month day : Int) :
    let t := total year month day hour minute second nanos
    t.hourOf = hour ∧ t.minuteOf = minute ∧ t.secondOf = second := by
  simp only [total, hourOf, minuteOf, secondOf, timeOfDay, nanosPerDay, nanosPerSecond]
  omega

/-- Fields in range of a day that the calendar has are not wrapped. -/
theorem ofFields_of_representable {d : Date} (hvalid : d.Valid)
    (h : (total d.year d.month d.day hour minute second nanos).Representable) :
    ofFields d.year d.month d.day hour minute second nanos =
      total d.year d.month d.day hour minute second nanos := by
  have hday := day_total hhour hminute hsecond hnanos hvalid
  have hyear := h.year.2
  rw [date_total hhour hminute hsecond hnanos hvalid] at hyear
  refine ofFields_eq_total hvalid (firstYear_le hvalid ?_) ?_ h
  · have hfirst := h.1
    rw [← hday]
    simp only [firstNano, day, nanosPerDay, nanosPerSecond] at hfirst ⊢
    omega
  · simp only [Word.half]
    omega

end

end TenantQuery.Instant
