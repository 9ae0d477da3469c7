import Mathlib.Tactic.Common
import TenantQuery.Calendar.Instant

namespace TenantQuery.Calendar

theorem isLeap_iff (year : Int) :
    isLeap year = true ↔ year % 4 = 0 ∧ (year % 100 ≠ 0 ∨ year % 400 = 0) := by
  simp [isLeap]

theorem daysBeforeYear_succ (year : Int) :
    daysBeforeYear (year + 1) = daysBeforeYear year + 365 + if isLeap year then 1 else 0 := by
  have hleap := isLeap_iff year
  unfold daysBeforeYear
  split
  · rename_i h
    have := hleap.1 h
    omega
  · rename_i h
    have := mt hleap.2 h
    omega

theorem daysBeforeYear_lt_succ (year : Int) :
    daysBeforeYear year + 365 ≤ daysBeforeYear (year + 1) ∧
      daysBeforeYear (year + 1) ≤ daysBeforeYear year + 366 := by
  rw [daysBeforeYear_succ]
  split <;> omega

theorem daysBeforeYear_mono {a b : Int} (h : a ≤ b) : daysBeforeYear a ≤ daysBeforeYear b := by
  unfold daysBeforeYear
  omega

theorem yearOfDay_spec (n : Int) :
    daysBeforeYear (yearOfDay n) ≤ n ∧ n < daysBeforeYear (yearOfDay n + 1) := by
  have hguess : daysBeforeYear (400 * n / 146097 + 1 - 1) ≤ n ∧
      n < daysBeforeYear (400 * n / 146097 + 1 + 1 + 1) := by
    unfold daysBeforeYear
    omega
  unfold yearOfDay
  dsimp only
  split
  · rename_i h
    refine ⟨hguess.1, ?_⟩
    rwa [Int.sub_add_cancel]
  · rename_i h
    split
    · rename_i h'
      exact ⟨h', hguess.2⟩
    · rename_i h'
      omega

theorem yearOfDay_eq {n year : Int} (h : daysBeforeYear year ≤ n)
    (h' : n < daysBeforeYear (year + 1)) : yearOfDay n = year := by
  obtain ⟨hle, hlt⟩ := yearOfDay_spec n
  rcases Int.lt_trichotomy (yearOfDay n) year with hy | hy | hy
  · have := daysBeforeYear_mono (show yearOfDay n + 1 ≤ year by omega)
    omega
  · exact hy
  · have := daysBeforeYear_mono (show year + 1 ≤ yearOfDay n by omega)
    omega

structure Date.Valid (d : Date) : Prop where
  month_pos : 1 ≤ d.month
  month_le : d.month ≤ 12
  day_pos : 1 ≤ d.day
  day_le : d.day ≤ daysInMonth d.year d.month

theorem Date.valid_iff {d : Date} : d.Valid ↔
    (1 ≤ d.month ∧ d.month ≤ 12) ∧ 1 ≤ d.day ∧ d.day ≤ daysInMonth d.year d.month :=
  ⟨fun ⟨hpos, hle, hday, hlast⟩ => ⟨⟨hpos, hle⟩, hday, hlast⟩,
    fun ⟨⟨hpos, hle⟩, hday, hlast⟩ => ⟨hpos, hle, hday, hlast⟩⟩

instance (d : Date) : Decidable d.Valid :=
  decidable_of_iff _ Date.valid_iff.symm

theorem month_cases {month : Int} (h : 1 ≤ month) (h' : month ≤ 12) :
    month = 1 ∨ month = 2 ∨ month = 3 ∨ month = 4 ∨ month = 5 ∨ month = 6 ∨ month = 7 ∨ month = 8 ∨
      month = 9 ∨ month = 10 ∨ month = 11 ∨ month = 12 := by
  omega

/-- A month ends where the next begins, and the last where the year ends. -/
theorem daysBeforeMonth_add (year month : Int) (h : 1 ≤ month) (h' : month ≤ 12) :
    daysBeforeMonth year month + daysInMonth year month =
      if month = 12 then 365 + if isLeap year then 1 else 0 else daysBeforeMonth year (month + 1) := by
  rcases month_cases h h' with
    rfl | rfl | rfl | rfl | rfl | rfl | rfl | rfl | rfl | rfl | rfl | rfl <;>
    cases hleap : isLeap year <;>
    simp [daysBeforeMonth, daysInMonth, monthOffset, hleap]

theorem daysBeforeMonth_one (year : Int) : daysBeforeMonth year 1 = 0 := by
  simp [daysBeforeMonth, monthOffset]

theorem daysBeforeMonth_succ (year month : Int) (h : 1 ≤ month) (h' : month < 12) :
    daysBeforeMonth year month + daysInMonth year month = daysBeforeMonth year (month + 1) := by
  rw [daysBeforeMonth_add year month h (by omega), if_neg (by omega)]

/-- The first month from `month` on whose end lies after day `n` of the year, among `more` further
ones. -/
def monthFrom (year n : Int) : (month : Int) → (more : Nat) → Int
  | month, 0 => month
  | month, more + 1 =>
    if n < daysBeforeMonth year (month + 1) then month else monthFrom year n (month + 1) more

theorem monthOfDay_eq (year n : Int) : monthOfDay year n = monthFrom year n 1 11 :=
  rfl

theorem monthFrom_spec {year n month : Int} {more : Nat} (hpos : 1 ≤ month)
    (hmore : month + more = 12) (hbegun : daysBeforeMonth year month ≤ n)
    (hyear : n < daysBeforeMonth year 12 + daysInMonth year 12) :
    1 ≤ monthFrom year n month more ∧ monthFrom year n month more ≤ 12 ∧
      daysBeforeMonth year (monthFrom year n month more) ≤ n ∧
      n < daysBeforeMonth year (monthFrom year n month more) +
        daysInMonth year (monthFrom year n month more) := by
  induction more generalizing month with
  | zero =>
      obtain rfl : month = 12 := by omega
      exact ⟨hpos, Int.le_refl _, hbegun, hyear⟩
  | succ more ih =>
      rw [monthFrom]
      split
      · rename_i hended
        rw [daysBeforeMonth_succ _ _ hpos (by omega)]
        exact ⟨hpos, by omega, hbegun, hended⟩
      · rename_i hended
        exact ih (by omega) (by omega) (Int.not_lt.1 hended)

theorem monthOfDay_spec (year : Int) {n : Int} (h : 0 ≤ n) (h' : n < 365 + if isLeap year then 1 else 0) :
    1 ≤ monthOfDay year n ∧ monthOfDay year n ≤ 12 ∧
      daysBeforeMonth year (monthOfDay year n) ≤ n ∧
      n < daysBeforeMonth year (monthOfDay year n) + daysInMonth year (monthOfDay year n) := by
  have hlast := daysBeforeMonth_add year 12 (by decide) (by decide)
  rw [if_pos rfl] at hlast
  rw [monthOfDay_eq]
  refine monthFrom_spec (by decide) (by decide) ?_ (hlast ▸ h')
  rw [daysBeforeMonth_one]
  exact h

theorem dateOf_spec (n : Int) :
    (dateOf n).Valid ∧ dayNumber (dateOf n).year (dateOf n).month (dateOf n).day = n := by
  obtain ⟨hle, hlt⟩ := yearOfDay_spec (n + epochDay)
  rw [daysBeforeYear_succ] at hlt
  obtain ⟨hpos, htwelve, hbefore, hafter⟩ :=
    monthOfDay_spec (yearOfDay (n + epochDay))
      (n := n + epochDay - daysBeforeYear (yearOfDay (n + epochDay))) (by omega) (by omega)
  refine ⟨⟨hpos, htwelve, ?_, ?_⟩, ?_⟩
  · simp only [dateOf]
    omega
  · simp only [dateOf]
    omega
  · simp only [dateOf, dayNumber]
    omega

theorem daysBeforeMonth_nonneg (year month : Int) : 0 ≤ daysBeforeMonth year month := by
  unfold daysBeforeMonth monthOffset
  split <;> split <;> decide

theorem daysBeforeMonth_mono (year : Int) {a b : Int} (ha : 1 ≤ a) (hab : a ≤ b) (hb : b ≤ 12) :
    daysBeforeMonth year a ≤ daysBeforeMonth year b := by
  have hdays (m : Int) : 0 ≤ daysInMonth year m := by
    unfold daysInMonth
    split <;> split <;> decide
  obtain ⟨k, rfl⟩ := Int.le.dest hab
  induction k with
  | zero => simp
  | succ k ih =>
      have hstep := daysBeforeMonth_succ year (a + k) (by omega) (by omega)
      have := hdays (a + k)
      have := ih (by omega) (by omega)
      rw [show a + ((k + 1 : Nat) : Int) = a + k + 1 by omega]
      omega

/-- The day of a valid date lies in its month and in its year. -/
theorem dateOf_dayNumber {d : Date} (h : d.Valid) : dateOf (dayNumber d.year d.month d.day) = d := by
  obtain ⟨year, month, day⟩ := d
  obtain ⟨hpos, htwelve, hday, hlast⟩ := h
  dsimp only at hpos htwelve hday hlast ⊢
  have hend : daysBeforeMonth year month + daysInMonth year month ≤
      365 + if isLeap year then 1 else 0 := by
    rw [daysBeforeMonth_add _ _ hpos htwelve]
    split
    · exact Int.le_refl _
    · have hmono := daysBeforeMonth_mono year (a := month + 1) (b := 12) (by omega)
        (by omega) (by decide)
      have hdecember := daysBeforeMonth_add year 12 (by decide) (by decide)
      rw [if_pos rfl] at hdecember
      have : daysInMonth year 12 = 31 := rfl
      omega
  have hbegin := daysBeforeMonth_nonneg year month
  have hyear : yearOfDay (dayNumber year month day + epochDay) = year := by
    apply yearOfDay_eq
    · unfold dayNumber
      omega
    · rw [daysBeforeYear_succ]
      unfold dayNumber
      omega
  have hrest : dayNumber year month day + epochDay - daysBeforeYear year =
      daysBeforeMonth year month + (day - 1) := by
    unfold dayNumber
    omega
  obtain ⟨hpos', htwelve', hbefore, hafter⟩ :=
    monthOfDay_spec year (n := daysBeforeMonth year month + (day - 1)) (by omega)
      (by omega)
  have hmonth : monthOfDay year (daysBeforeMonth year month + (day - 1)) = month := by
    generalize monthOfDay year (daysBeforeMonth year month + (day - 1)) = month' at *
    rcases Int.lt_trichotomy month' month with hlt | heq | hgt
    · have hmono := daysBeforeMonth_mono year (a := month' + 1) (b := month) (by omega)
        (by omega) htwelve
      rw [daysBeforeMonth_succ _ _ hpos' (by omega)] at hafter
      omega
    · exact heq
    · have hmono := daysBeforeMonth_mono year (a := month + 1) (b := month') (by omega)
        (by omega) htwelve'
      rw [← daysBeforeMonth_succ _ _ hpos (by omega)] at hmono
      omega
  simp only [dateOf, hyear, hrest, hmonth, Date.mk.injEq, true_and]
  omega

end TenantQuery.Calendar
