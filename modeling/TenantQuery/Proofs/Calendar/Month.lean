import TenantQuery.Calendar.Component
import TenantQuery.Proofs.Calendar.Date

namespace TenantQuery

open Calendar

namespace Calendar

theorem yearOfDay_mono {a b : Int} (h : a ≤ b) : yearOfDay a ≤ yearOfDay b := by
  by_contra hlt
  have hmono := daysBeforeYear_mono (show yearOfDay b + 1 ≤ yearOfDay a by omega)
  have ha := (yearOfDay_spec a).1
  have hb := (yearOfDay_spec b).2
  omega

theorem yearOfDay_pred (n : Int) : yearOfDay n - 1 ≤ yearOfDay (n - 1) := by
  by_contra hlt
  have hmono := daysBeforeYear_mono (show yearOfDay (n - 1) + 1 ≤ yearOfDay n - 1 by omega)
  have hyear := (daysBeforeYear_lt_succ (yearOfDay n - 1)).1
  rw [Int.sub_add_cancel] at hyear
  have hn := (yearOfDay_spec n).1
  have hn' := (yearOfDay_spec (n - 1)).2
  omega

theorem daysInMonth_pos (year month : Int) : 1 ≤ daysInMonth year month := by
  unfold daysInMonth
  split_ifs <;> decide

end Calendar

namespace Instant

theorem date_valid (t : Instant) : t.date.Valid :=
  (dateOf_spec t.day).1

theorem year_eq (t : Instant) : t.date.year = yearOfDay (t.day + epochDay) :=
  rfl

theorem date_ofDay (n : Int) : (ofDay n).date = dateOf n := by
  have hday : (ofDay n).day = n := by
    simp only [ofDay, day, nanosPerDay, nanosPerSecond]
    omega
  rw [date, hday]

theorem date_addMonths (t : Instant) (n : Int) :
    (t.addMonths n).date.year = t.date.year + (t.date.month - 1 + n) / 12 ∧
      (t.addMonths n).date.month = (t.date.month - 1 + n) % 12 + 1 ∧
      (t.addMonths n).date.day = min t.date.day
        (daysInMonth (t.addMonths n).date.year (t.addMonths n).date.month) := by
  have hvalid := t.date_valid
  have hdays := daysInMonth_pos (t.date.year + (t.date.month - 1 + n) / 12)
    ((t.date.month - 1 + n) % 12 + 1)
  have hday : (t.addMonths n).day = dayNumber (t.date.year + (t.date.month - 1 + n) / 12)
      ((t.date.month - 1 + n) % 12 + 1) (min t.date.day (daysInMonth
        (t.date.year + (t.date.month - 1 + n) / 12) ((t.date.month - 1 + n) % 12 + 1))) := by
    simp only [addMonths, day, timeOfDay, nanosPerDay, nanosPerSecond]
    omega
  have hdate := dateOf_dayNumber (d := ⟨t.date.year + (t.date.month - 1 + n) / 12,
    (t.date.month - 1 + n) % 12 + 1, min t.date.day (daysInMonth
      (t.date.year + (t.date.month - 1 + n) / 12) ((t.date.month - 1 + n) % 12 + 1))⟩)
    ⟨by dsimp only; omega, by dsimp only; omega, by dsimp only; have := hvalid.day_pos; omega,
      by dsimp only; omega⟩
  rw [date, hday, hdate]
  exact ⟨rfl, rfl, rfl⟩

theorem timeOfDay_addMonths (t : Instant) (n : Int) :
    (t.addMonths n).timeOfDay = t.timeOfDay := by
  simp only [addMonths, timeOfDay, nanosPerDay, nanosPerSecond]
  omega

theorem date_beginningOf_month (t : Instant) :
    (t.beginningOf .month).date = ⟨t.date.year, t.date.month, 1⟩ := by
  have hvalid := t.date_valid
  have hdays := daysInMonth_pos t.date.year t.date.month
  simp only [beginningOf, date_ofDay]
  exact dateOf_dayNumber (d := ⟨t.date.year, t.date.month, 1⟩)
    ⟨hvalid.month_pos, hvalid.month_le, Int.le_refl 1, hdays⟩

theorem year_addSeconds_neg_one (t : Instant) :
    t.date.year - 1 ≤ (t.addSeconds (-1)).date.year ∧
      (t.addSeconds (-1)).date.year ≤ t.date.year := by
  have hday : t.day - 1 ≤ (t.addSeconds (-1)).day ∧ (t.addSeconds (-1)).day ≤ t.day := by
    simp only [addSeconds, addNanos, day, nanosPerDay, nanosPerSecond]
    omega
  have hpred := yearOfDay_pred (t.day + epochDay)
  have hlow := yearOfDay_mono (show t.day + epochDay - 1 ≤ (t.addSeconds (-1)).day + epochDay by
    omega)
  have hhigh := yearOfDay_mono (show (t.addSeconds (-1)).day + epochDay ≤ t.day + epochDay by omega)
  rw [year_eq, year_eq]
  omega

/-- The year that a month ends in is next to the one that it begins in. -/
theorem year_endOf_month (t : Instant) :
    t.date.year - 1 ≤ (t.endOf .month).date.year ∧
      (t.endOf .month).date.year ≤ t.date.year + 1 := by
  have hbegin := date_beginningOf_month t
  have hmonth := t.date_valid
  have hnext := (date_addMonths (t.beginningOf .month) 1).1
  have hsecond := year_addSeconds_neg_one ((t.beginningOf .month).addMonths 1)
  rw [hbegin] at hnext
  dsimp only at hnext
  have hle := hmonth.month_le
  have hpos := hmonth.month_pos
  simp only [endOf, add]
  omega

theorem monthsBetween_le (a b : Instant) :
    a.monthsBetween b ≤ max 0 ((b.date.year - a.date.year) * 12 + 11) := by
  have ha := a.date_valid
  have hb := b.date_valid
  have hpos := ha.month_pos
  have hle := hb.month_le
  unfold monthsBetween
  dsimp only
  split_ifs <;> omega

end Instant

end TenantQuery
