import TenantQuery.Proofs.Calendar.Segment

namespace TenantQuery

open Calendar

namespace Instant

variable {t : Instant}

theorem ofDay_eq_iff {n : Int} : ofDay n = t ↔ n = t.day ∧ t.timeOfDay = 0 := by
  obtain ⟨nanos⟩ := t
  simp only [ofDay, day, timeOfDay, mk.injEq, nanosPerDay, nanosPerSecond]
  omega

theorem dayNumber_eq_day_iff {d : Date} (h : d.Valid) :
    dayNumber d.year d.month d.day = t.day ↔ t.date = d := by
  constructor
  · intro hday
    rw [date, ← hday]
    exact dateOf_dayNumber h
  · rintro rfl
    exact (dateOf_spec t.day).2

theorem ofDay_dayNumber_eq_iff {year month : Int} (hpos : 1 ≤ month) (hle : month ≤ 12) :
    ofDay (dayNumber year month 1) = t ↔ t.date = ⟨year, month, 1⟩ ∧ t.timeOfDay = 0 := by
  have hvalid : Date.Valid ⟨year, month, 1⟩ := ⟨hpos, hle, Int.le_refl 1, daysInMonth_pos _ _⟩
  rw [ofDay_eq_iff, ← dayNumber_eq_day_iff hvalid]

end Instant

namespace Component

def Begins : Component → Instant → Prop
  | .hour, t => t.timeOfDay % nanosPerHour = 0
  | .day, t => t.timeOfDay = 0
  | .week, t => t.weekday = 0 ∧ t.timeOfDay = 0
  | .month, t => t.date.day = 1 ∧ t.timeOfDay = 0
  | .quarter, t => t.date.month ∈ [1, 4, 7, 10] ∧ t.date.day = 1 ∧ t.timeOfDay = 0
  | .year, t => t.date.month = 1 ∧ t.date.day = 1 ∧ t.timeOfDay = 0
  | .unset, _ => True

variable {c : Component} {k : Int} {t u : Instant}

theorem begins_iff : c.Begins t ↔ t.Aligned c := by
  have hvalid := t.date_valid
  have hpos := hvalid.month_pos
  have hle := hvalid.month_le
  cases c with
  | hour =>
      obtain ⟨nanos⟩ := t
      simp only [Begins, Instant.Aligned, Instant.beginningOf, Instant.timeOfDay, Instant.mk.injEq,
        nanosPerHour, nanosPerDay, nanosPerSecond]
      omega
  | day =>
      simp only [Begins, Instant.Aligned, Instant.beginningOf, Instant.ofDay_eq_iff, true_and]
  | week =>
      simp only [Begins, Instant.Aligned, Instant.beginningOf, Instant.ofDay_eq_iff]
      omega
  | month =>
      simp only [Begins, Instant.Aligned, Instant.beginningOf,
        Instant.ofDay_dayNumber_eq_iff hpos hle]
      generalize t.date = d
      obtain ⟨year, month, day⟩ := d
      simp
  | quarter =>
      simp only [Begins, Instant.Aligned, Instant.beginningOf]
      rw [Instant.ofDay_dayNumber_eq_iff (by omega) (by omega)]
      generalize t.date = d at hpos hle
      obtain ⟨year, month, day⟩ := d
      simp only [Date.mk.injEq, List.mem_cons, List.not_mem_nil, or_false, true_and] at hpos hle ⊢
      omega
  | year =>
      simp only [Begins, Instant.Aligned, Instant.beginningOf]
      rw [Instant.ofDay_dayNumber_eq_iff (by omega) (by omega)]
      generalize t.date = d
      obtain ⟨year, month, day⟩ := d
      simp [and_assoc]
  | unset => simp [Begins, Instant.Aligned, Instant.beginningOf]

theorem startOf_emod_hour (hc : c ≠ .unset) (k : Int) : (c.startOf k).nanos % nanosPerHour = 0 := by
  have hday (n : Int) : (Instant.ofDay n).nanos % nanosPerHour = 0 := by
    simp only [Instant.ofDay, nanosPerHour, nanosPerDay, nanosPerSecond]
    omega
  cases c with
  | hour => exact Int.mul_emod_left k nanosPerHour
  | day | week | month | quarter | year => exact hday _
  | unset => exact absurd rfl hc

theorem startOf_add_hour_le (hc : c ≠ .unset) {j k : Int} (h : j < k) :
    (c.startOf j).nanos + nanosPerHour ≤ (c.startOf k).nanos := by
  have hlt : (c.startOf j).nanos < (c.startOf k).nanos := startOf_lt_startOf.2 h
  have hj := startOf_emod_hour hc j
  have hk := startOf_emod_hour hc k
  simp only [nanosPerHour, nanosPerSecond] at hj hk ⊢
  omega

theorem number_endOf (hc : c ≠ .unset) (t : Instant) : c.number (t.endOf c) = c.number t := by
  have hlength := startOf_add_hour_le hc (Int.lt_succ (c.number t))
  rw [number_eq_iff, endOf_eq hc, Instant.le_iff, Instant.lt_iff]
  simp only [Instant.addSeconds, Instant.addNanos, nanosPerHour, nanosPerSecond] at hlength ⊢
  omega

theorem next_eq (hc : c ≠ .unset) (t : Instant) :
    (t.beginningOf c).add c 1 = c.startOf (c.number t + 1) := by
  rw [beginningOf_eq, add_startOf (shifts_one hc)]

theorem isGreatest_beginningOf (c : Component) (t : Instant) :
    IsGreatest {b | c.Begins b ∧ b ≤ t} (t.beginningOf c) := by
  rw [beginningOf_eq]
  refine ⟨⟨begins_iff.2 aligned_startOf, startOf_le_iff.2 (Int.le_refl _)⟩, ?_⟩
  rintro b ⟨hbegins, hle⟩
  rw [← startOf_number (begins_iff.1 hbegins)]
  exact startOf_le_startOf.2 (number_mono hle)

theorem isLeast_next (hc : c ≠ .unset) (t : Instant) :
    IsLeast {e | c.Begins e ∧ t < e} ((t.beginningOf c).add c 1) := by
  rw [next_eq hc]
  refine ⟨⟨begins_iff.2 aligned_startOf, lt_startOf_iff.2 (Int.lt_succ _)⟩, ?_⟩
  rintro e ⟨hbegins, hlt⟩
  rw [← startOf_number (begins_iff.1 hbegins)] at hlt ⊢
  exact startOf_le_startOf.2 (lt_startOf_iff.1 hlt)

/-- The units of one kind leave no instant out and do not overlap. A unit goes from its beginning up
to the beginning of the next one. -/
structure Tiles (c : Component) : Prop where
  first (t : Instant) : IsGreatest {b | c.Begins b ∧ b ≤ t} (t.beginningOf c)
  next (t : Instant) : IsLeast {e | c.Begins e ∧ t < e} ((t.beginningOf c).add c 1)
  holds (t : Instant) : t.beginningOf c ≤ t ∧ t < (t.beginningOf c).add c 1
  same_iff (t u : Instant) : u.beginningOf c = t.beginningOf c ↔
    t.beginningOf c ≤ u ∧ u < (t.beginningOf c).add c 1
  apart (t u : Instant) : t.beginningOf c < u.beginningOf c →
    (t.beginningOf c).add c 1 ≤ u.beginningOf c
  beginningOf_next (t : Instant) :
    ((t.beginningOf c).add c 1).beginningOf c = (t.beginningOf c).add c 1
  idempotent (t : Instant) : (t.beginningOf c).beginningOf c = t.beginningOf c
  monotone (t u : Instant) : t ≤ u → t.beginningOf c ≤ u.beginningOf c
  -- The end of a unit is one second before the next, and still part of it.
  last (t : Instant) : (t.endOf c).nanos = ((t.beginningOf c).add c 1).nanos - nanosPerSecond ∧
    (t.endOf c).beginningOf c = t.beginningOf c

/-- Hours, days, weeks, months, quarters and years tile time. -/
theorem units_tile (c : Component) (hc : c ≠ .unset) : c.Tiles where
  first := isGreatest_beginningOf c
  next := isLeast_next hc
  holds t := ⟨(isGreatest_beginningOf c t).1.2, (isLeast_next hc t).1.2⟩
  same_iff t u := by
    rw [next_eq hc, beginningOf_eq, beginningOf_eq, startOf_injective.eq_iff, number_eq_iff]
  apart t u hlt := by
    rw [beginningOf_eq c t, beginningOf_eq c u, startOf_lt_startOf] at hlt
    rw [next_eq hc, beginningOf_eq, startOf_le_startOf]
    exact hlt
  beginningOf_next t := begins_iff.1 (isLeast_next hc t).1.1
  idempotent t := begins_iff.1 (isGreatest_beginningOf c t).1.1
  monotone t u hle := by
    rw [beginningOf_eq, beginningOf_eq, startOf_le_startOf]
    exact number_mono hle
  last t := by
    constructor
    · simp only [Instant.endOf, Instant.addSeconds, Instant.addNanos, nanosPerSecond]
      omega
    · rw [beginningOf_eq, beginningOf_eq, number_endOf hc]

theorem units_tile_leap_week :
    Component.week ≠ .unset ∧
    (Instant.ofFields 2024 3 3 23 59 59 0).beginningOf .week =
      (Instant.ofFields 2024 2 29 12 0 0 0).beginningOf .week ∧
    ((Instant.ofFields 2024 2 29 12 0 0 0).endOf .week).beginningOf .week =
      .ofFields 2024 2 26 0 0 0 0 := by
  have hweek : Component.week ≠ .unset := by decide
  obtain ⟨-, -, -, hsame, -, -, -, -, hlast⟩ := units_tile .week hweek
  refine ⟨hweek, (hsame _ _).2 ⟨by decide, by decide⟩, (hlast _).2.trans ?_⟩
  decide

end Component

end TenantQuery
