import Mathlib.Order.Monotone.Basic
import TenantQuery.Calendar.Relative
import TenantQuery.Proofs.Calendar.Month

namespace TenantQuery

open Calendar

namespace Calendar

/-- The first day of a month, months being counted on from January of year 0. -/
def firstDay (k : Int) : Int :=
  dayNumber (k / 12) (k % 12 + 1) 1

def monthStart (k : Int) : Instant :=
  .ofDay (firstDay k)

theorem firstDay_succ (k : Int) :
    firstDay (k + 1) = firstDay k + daysInMonth (k / 12) (k % 12 + 1) := by
  have hmonth := daysBeforeMonth_add (k / 12) (k % 12 + 1) (by omega) (by omega)
  unfold firstDay dayNumber
  by_cases hlast : k % 12 = 11
  · -- December is followed by January of the next year.
    have hyear := daysBeforeYear_succ (k / 12)
    rw [show (k + 1) / 12 = k / 12 + 1 by omega, show (k + 1) % 12 + 1 = 1 by omega, hyear,
      daysBeforeMonth_one]
    rw [if_pos (by omega)] at hmonth
    omega
  · rw [show (k + 1) / 12 = k / 12 by omega, show (k + 1) % 12 + 1 = k % 12 + 1 + 1 by omega]
    rw [if_neg (by omega)] at hmonth
    omega

theorem le_daysInMonth (year month : Int) : 28 ≤ daysInMonth year month := by
  unfold daysInMonth
  split_ifs <;> decide

theorem firstDay_lt_firstDay {j k : Int} : firstDay j < firstDay k ↔ j < k := by
  have hmono : StrictMono firstDay := by
    refine strictMono_int_of_lt_succ fun k => ?_
    have hlength := le_daysInMonth (k / 12) (k % 12 + 1)
    rw [firstDay_succ]
    omega
  exact hmono.lt_iff_lt

theorem date_monthStart (k : Int) : (monthStart k).date = ⟨k / 12, k % 12 + 1, 1⟩ := by
  rw [monthStart, Instant.date_ofDay]
  exact dateOf_dayNumber (d := ⟨k / 12, k % 12 + 1, 1⟩)
    ⟨by dsimp only; omega, by dsimp only; omega, Int.le_refl 1, daysInMonth_pos _ _⟩

end Calendar

namespace Instant

theorem le_iff {a b : Instant} : a ≤ b ↔ a.nanos ≤ b.nanos :=
  Iff.rfl

theorem lt_iff {a b : Instant} : a < b ↔ a.nanos < b.nanos :=
  Iff.rfl

theorem nanos_ofDay (n : Int) : (ofDay n).nanos = n * nanosPerDay :=
  rfl

theorem ofDay_le_iff {n : Int} {t : Instant} : ofDay n ≤ t ↔ n ≤ t.day := by
  rw [le_iff, nanos_ofDay, day]
  simp only [nanosPerDay, nanosPerSecond]
  omega

theorem day_ofDay (n : Int) : (ofDay n).day = n := by
  simp only [ofDay, day, nanosPerDay, nanosPerSecond]
  omega

theorem timeOfDay_ofDay (n : Int) : (ofDay n).timeOfDay = 0 := by
  simp only [ofDay, timeOfDay, nanosPerDay, nanosPerSecond]
  omega

def monthNumber (t : Instant) : Int :=
  12 * t.date.year + (t.date.month - 1)

theorem firstDay_monthNumber (t : Instant) :
    firstDay t.monthNumber ≤ t.day ∧ t.day < firstDay (t.monthNumber + 1) := by
  obtain ⟨⟨hpos, hle, hday, hlast⟩, hnumber⟩ := dateOf_spec t.day
  change 1 ≤ t.date.month at hpos
  change t.date.month ≤ 12 at hle
  change 1 ≤ t.date.day at hday
  change t.date.day ≤ daysInMonth t.date.year t.date.month at hlast
  change dayNumber t.date.year t.date.month t.date.day = t.day at hnumber
  have hyear : t.monthNumber / 12 = t.date.year := by
    unfold monthNumber
    omega
  have hmonth : t.monthNumber % 12 + 1 = t.date.month := by
    unfold monthNumber
    omega
  have hfirst : firstDay t.monthNumber = t.day - (t.date.day - 1) := by
    rw [firstDay, hyear, hmonth, ← hnumber]
    unfold dayNumber
    omega
  rw [firstDay_succ, hyear, hmonth, hfirst]
  omega

theorem monthStart_le_iff {k : Int} {t : Instant} : monthStart k ≤ t ↔ k ≤ t.monthNumber := by
  obtain ⟨hbegun, hended⟩ := t.firstDay_monthNumber
  rw [monthStart, ofDay_le_iff]
  constructor
  · intro h
    have hlt : firstDay k < firstDay (t.monthNumber + 1) := Int.lt_of_le_of_lt h hended
    exact Int.lt_add_one_iff.1 (firstDay_lt_firstDay.1 hlt)
  · intro h
    have hlt : ¬ firstDay t.monthNumber < firstDay k := fun hlt =>
      absurd (firstDay_lt_firstDay.1 hlt) (by omega)
    omega

theorem monthNumber_monthStart (k : Int) : (monthStart k).monthNumber = k := by
  rw [monthNumber, date_monthStart]
  dsimp only
  omega

theorem monthNumber_addMonths (t : Instant) (n : Int) :
    (t.addMonths n).monthNumber = t.monthNumber + n := by
  obtain ⟨hyear, hmonth, -⟩ := date_addMonths t n
  rw [monthNumber, monthNumber, hyear, hmonth]
  omega

theorem addMonths_monthStart (k n : Int) : (monthStart k).addMonths n = monthStart (k + n) := by
  have hdays := daysInMonth_pos (k / 12 + (k % 12 + 1 - 1 + n) / 12)
    ((k % 12 + 1 - 1 + n) % 12 + 1)
  have htime : (monthStart k).timeOfDay = 0 := timeOfDay_ofDay _
  simp only [addMonths, date_monthStart, htime, Int.add_zero]
  rw [Int.min_eq_left hdays, monthStart, firstDay,
    show k / 12 + (k % 12 + 1 - 1 + n) / 12 = (k + n) / 12 by omega,
    show (k % 12 + 1 - 1 + n) % 12 + 1 = (k + n) % 12 + 1 by omega]
  rfl

end Instant

namespace Component

def startOf : Component → Int → Instant
  | .hour, k => ⟨k * nanosPerHour⟩
  | .day, k => .ofDay k
  | .week, k => .ofDay (7 * k - 3)
  | .month, k => monthStart k
  | .quarter, k => monthStart (3 * k)
  | .year, k => monthStart (12 * k)
  | .unset, k => ⟨k⟩

/-- The unit that holds an instant. -/
def number : Component → Instant → Int
  | .hour, t => t.nanos / nanosPerHour
  | .day, t => t.day
  | .week, t => (t.day + 3) / 7
  | .month, t => t.monthNumber
  | .quarter, t => t.monthNumber / 3
  | .year, t => t.monthNumber / 12
  | .unset, t => t.nanos

section

variable {c : Component} {k n : Int} {t : Instant}

/-- A unit has begun exactly if it is not after the one that holds the instant. -/
theorem startOf_le_iff : c.startOf k ≤ t ↔ k ≤ c.number t := by
  cases c with
  | hour =>
      simp only [startOf, number, Instant.le_iff, nanosPerHour, nanosPerSecond]
      omega
  | day => exact Instant.ofDay_le_iff
  | week =>
      simp only [startOf, number, Instant.ofDay_le_iff]
      omega
  | month => exact Instant.monthStart_le_iff
  | quarter =>
      simp only [startOf, number, Instant.monthStart_le_iff]
      omega
  | year =>
      simp only [startOf, number, Instant.monthStart_le_iff]
      omega
  | unset => exact Iff.rfl

theorem lt_startOf_iff : t < c.startOf k ↔ c.number t < k := by
  have hle := startOf_le_iff (c := c) (k := k) (t := t)
  rw [Instant.le_iff] at hle
  rw [Instant.lt_iff]
  omega

theorem number_eq_iff : c.number t = k ↔ c.startOf k ≤ t ∧ t < c.startOf (k + 1) := by
  rw [startOf_le_iff, lt_startOf_iff]
  omega

theorem number_mono {u : Instant} (h : t ≤ u) : c.number t ≤ c.number u :=
  startOf_le_iff.1 (Int.le_trans (startOf_le_iff.2 (Int.le_refl _)) h)

@[simp] theorem number_startOf : c.number (c.startOf k) = k := by
  cases c with
  | hour =>
      simp only [startOf, number, nanosPerHour, nanosPerSecond]
      omega
  | day => exact Instant.day_ofDay k
  | week =>
      simp only [startOf, number, Instant.day_ofDay]
      omega
  | month => exact Instant.monthNumber_monthStart k
  | quarter =>
      simp only [startOf, number, Instant.monthNumber_monthStart]
      omega
  | year =>
      simp only [startOf, number, Instant.monthNumber_monthStart]
      omega
  | unset => rfl

theorem startOf_le_startOf {a b : Int} : c.startOf a ≤ c.startOf b ↔ a ≤ b := by
  rw [startOf_le_iff, number_startOf]

theorem startOf_lt_startOf {a b : Int} : c.startOf a < c.startOf b ↔ a < b := by
  have hle := startOf_le_startOf (c := c) (a := b) (b := a)
  rw [Instant.le_iff] at hle
  rw [Instant.lt_iff]
  omega

theorem startOf_injective : Function.Injective c.startOf := by
  intro a b h
  rw [← number_startOf (c := c) (k := a), h, number_startOf]

theorem beginningOf_eq (c : Component) (t : Instant) :
    t.beginningOf c = c.startOf (c.number t) := by
  have hvalid := t.date_valid
  have hpos := hvalid.month_pos
  have hle := hvalid.month_le
  cases c with
  | hour | day | unset => rfl
  | week =>
      simp only [Instant.beginningOf, startOf, number, Instant.weekday]
      congr 1
      omega
  | month =>
      simp only [Instant.beginningOf, startOf, number, monthStart, firstDay, Instant.monthNumber]
      congr 2 <;> omega
  | quarter =>
      simp only [Instant.beginningOf, startOf, number, monthStart, firstDay, Instant.monthNumber]
      congr 2 <;> omega
  | year =>
      simp only [Instant.beginningOf, startOf, number, monthStart, firstDay, Instant.monthNumber]
      congr 2 <;> omega

/-- Shifting by `n` units is exact: there is a unit, and no span of hours wraps around. -/
structure Shifts (c : Component) (n : Int) : Prop where
  unit : c ≠ .unset
  hours : c = .hour → Instant.hourSpan n = n * nanosPerHour

theorem shifts_one (hc : c ≠ .unset) : c.Shifts 1 :=
  ⟨hc, fun _ => by decide⟩

theorem add_startOf (h : c.Shifts n) : (c.startOf k).add c n = c.startOf (k + n) := by
  cases c with
  | hour =>
      simp only [Instant.add, startOf, Instant.addNanos, h.hours rfl, Int.add_mul]
  | day =>
      simp only [Instant.add, startOf, Instant.addDays, Instant.addNanos, Instant.ofDay, Int.add_mul]
  | week =>
      simp only [Instant.add, startOf, Instant.addDays, Instant.addNanos, Instant.ofDay,
        ← Int.add_mul]
      congr 2
      omega
  | month => exact Instant.addMonths_monthStart k n
  | quarter =>
      simp only [Instant.add, startOf, Instant.addMonths_monthStart]
      congr 1
      omega
  | year =>
      simp only [Instant.add, startOf, Instant.addMonths_monthStart]
      congr 1
      omega
  | unset => exact absurd rfl h.unit

theorem number_add (h : c.Shifts n) : c.number (t.add c n) = c.number t + n := by
  cases c with
  | hour =>
      simp only [Instant.add, number, Instant.addNanos, h.hours rfl, nanosPerHour, nanosPerSecond]
      omega
  | day =>
      simp only [Instant.add, number, Instant.addDays, Instant.addNanos, Instant.day, nanosPerDay,
        nanosPerSecond]
      omega
  | week =>
      simp only [Instant.add, number, Instant.addDays, Instant.addNanos, Instant.day, nanosPerDay,
        nanosPerSecond]
      omega
  | month => exact Instant.monthNumber_addMonths t n
  | quarter =>
      simp only [Instant.add, number, Instant.monthNumber_addMonths]
      omega
  | year =>
      simp only [Instant.add, number, Instant.monthNumber_addMonths]
      omega
  | unset => exact absurd rfl h.unit

/-- The last second of a unit is the one before the next unit. -/
theorem endOf_eq (hc : c ≠ .unset) (t : Instant) :
    t.endOf c = (c.startOf (c.number t + 1)).addSeconds (-1) := by
  rw [Instant.endOf, beginningOf_eq, add_startOf (shifts_one hc)]

end

end Component

theorem RelativeDate.resolve_congr {d : RelativeDate} (h : d.component.Shifts d.offset)
    {now now' : Instant} (hnow : d.component.number now = d.component.number now') :
    d.resolve now = d.resolve now' := by
  simp only [resolve, Component.beginningOf_eq, Component.endOf_eq h.unit, Component.number_add h,
    hnow]

end TenantQuery
