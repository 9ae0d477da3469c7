import TenantQuery.Proofs.Calendar.Shift

namespace TenantQuery

open Calendar

structure Instant.Civil (t : Instant) : Prop where
  pos : 1 ≤ t.date.year
  le : t.date.year ≤ 9999

instance (t : Instant) : Decidable t.Civil :=
  decidable_of_iff (1 ≤ t.date.year ∧ t.date.year ≤ 9999) ⟨fun h => ⟨h.1, h.2⟩, fun h => ⟨h.pos, h.le⟩⟩

theorem Instant.Civil.day_bounds {t : Instant} (h : t.Civil) :
    -719162 ≤ t.day ∧ t.day < 2932897 := by
  obtain ⟨hbegun, hended⟩ := yearOfDay_spec (t.day + epochDay)
  rw [← Instant.year_eq] at hbegun hended
  have hfirst := daysBeforeYear_mono h.pos
  have hlast := daysBeforeYear_mono (Int.add_le_add_right h.le 1)
  have hone : daysBeforeYear 1 = 0 := by decide
  have hend : daysBeforeYear (9999 + 1) = 3652059 := by decide
  rw [hone] at hfirst
  rw [hend] at hlast
  simp only [epochDay] at hbegun hended
  omega

namespace Component

variable {c : Component} {n m j k : Int} {t : Instant} {p : Position}

theorem number_bounds (hc : c ≠ .unset) (h : t.Civil) : (c.number t).natAbs < 100000000 := by
  obtain ⟨hlow, hhigh⟩ := h.day_bounds
  have hmonth : 12 ≤ t.monthNumber ∧ t.monthNumber < 120000 := by
    have := h.pos
    have := h.le
    have := t.date_valid.month_pos
    have := t.date_valid.month_le
    unfold Instant.monthNumber
    omega
  cases c with
  | hour =>
      simp only [number, Instant.day, nanosPerHour, nanosPerDay, nanosPerSecond] at hlow hhigh ⊢
      omega
  | day | week | month | quarter | year =>
      simp only [number]
      omega
  | unset => exact absurd rfl hc

/-- The whole numbers that a shift by `n` units is computed with: the span in nanoseconds, days or
months, and the day or the month that it is added to. -/
def counts (c : Component) (t : Instant) (n : Int) : List Int :=
  match c with
  | .hour => [n * nanosPerHour]
  | .day => [t.date.day + n]
  | .week => [7 * n, t.date.day + 7 * n]
  | .month => [t.date.month - 1 + n]
  | .quarter => [3 * n, t.date.month - 1 + 3 * n]
  | .year => [12 * n, t.date.month - 1 + 12 * n]
  | .unset => []

theorem holds_hours : Word.Holds (n * nanosPerHour) ↔ n.natAbs ≤ 2562047 := by
  simp only [Word.Holds, Word.half, nanosPerHour, nanosPerSecond]
  omega

theorem counts_hold_iff (hn : n.natAbs < 200000000) :
    (∀ k ∈ c.counts t n, Word.Holds k) ↔ (c = .hour → n.natAbs ≤ 2562047) := by
  have hvalid := t.date_valid
  have hday : 1 ≤ t.date.day ∧ t.date.day ≤ 31 := by
    have hle : daysInMonth t.date.year t.date.month ≤ 31 := by
      unfold daysInMonth
      split_ifs <;> decide
    exact ⟨hvalid.day_pos, Int.le_trans hvalid.day_le hle⟩
  have hpos := hvalid.month_pos
  have hle := hvalid.month_le
  cases c with
  | hour =>
      rw [counts, List.forall_mem_singleton, holds_hours]
      exact ⟨fun h _ => h, fun h => h rfl⟩
  | day | week | month | quarter | year =>
      simp only [counts, List.mem_cons, List.not_mem_nil, or_false, forall_eq_or_imp, forall_eq,
        Word.Holds, Word.half, reduceCtorEq, false_imp_iff, iff_true]
      omega
  | unset => simp [counts]

/-- Shifting leads into the unit that counting leads to, but for spans of hours that wrap around. A
span that does is off by a multiple of 584 years. -/
theorem number_add_iff (hc : c ≠ .unset) :
    c.number (t.add c n) = c.number t + n ↔ (c = .hour → n.natAbs ≤ 2562047) := by
  constructor
  · rintro h rfl
    simp only [number, Instant.add, Instant.addNanos, Instant.hourSpan, Int.bmod, Word.count,
      nanosPerHour, nanosPerSecond] at h
    split_ifs at h <;> omega
  · intro h
    exact number_add (shifts_of_le hc h)

def place (c : Component) (p : Position) (k : Int) : Instant :=
  match p with
  | .ending => (c.startOf (k + 1)).addSeconds (-1)
  | .beginning | .unset => c.startOf k

theorem number_place (hc : c ≠ .unset) : c.number (c.place p k) = k := by
  cases p with
  | beginning | unset => exact number_startOf
  | ending =>
      have hlast := endOf_eq hc (c.startOf k)
      rw [number_startOf] at hlast
      rw [place, ← hlast, number_endOf hc, number_startOf]

theorem place_injective (hc : c ≠ .unset) : Function.Injective (c.place p) := by
  intro j k h
  rw [← number_place hc (p := p) (k := j), h, number_place hc]

theorem place_le_place (h : j ≤ k) : c.place p j ≤ c.place p k := by
  cases p with
  | beginning | unset => exact startOf_le_startOf.2 h
  | ending =>
      have hle : c.startOf (j + 1) ≤ c.startOf (k + 1) := startOf_le_startOf.2 (by omega)
      exact Int.add_le_add_right hle _

end Component

namespace RelativeDate

variable {c : Component}

theorem resolve_eq_place (hc : c ≠ .unset) (n : Int) (p : Position) (now : Instant) :
    resolve ⟨c, n, p⟩ now = c.place p (c.number (now.add c n)) := by
  cases p with
  | beginning | unset => exact Component.beginningOf_eq c _
  | ending => exact Component.endOf_eq hc _

/-- Where the clock and the date that counting units leads to are both of the years 1 to 9999, a
relative date lies in the unit counted to, and is the date counted to, just if all numbers on the way
are words; and they are, unless the units are hours and more than 2562047 of them. Among offsets
without a number too large, a greater one leads to no earlier date. -/
theorem resolve_exact_iff (c : Component) (hc : c ≠ .unset) (p : Position) (now : Instant)
    (hnow : now.Civil) :
    (∀ n, (c.place p (c.number now + n)).Civil →
      (c.number (resolve ⟨c, n, p⟩ now) = c.number now + n ↔
        ∀ k ∈ c.counts now n, Word.Holds k) ∧
      (resolve ⟨c, n, p⟩ now = c.place p (c.number now + n) ↔
        ∀ k ∈ c.counts now n, Word.Holds k) ∧
      ((∀ k ∈ c.counts now n, Word.Holds k) ↔ (c = .hour → n.natAbs ≤ 2562047))) ∧
    (∀ n m, n ≤ m → (∀ k ∈ c.counts now n ++ c.counts now m, Word.Holds k) →
      (c.place p (c.number now + n)).Civil → (c.place p (c.number now + m)).Civil →
      resolve ⟨c, n, p⟩ now ≤ resolve ⟨c, m, p⟩ now) := by
  have hwords (n : Int) (h : (c.place p (c.number now + n)).Civil) :
      (∀ k ∈ c.counts now n, Word.Holds k) ↔ (c = .hour → n.natAbs ≤ 2562047) := by
    have hstart := Component.number_bounds hc hnow
    have hend := Component.number_bounds hc h
    rw [Component.number_place hc] at hend
    exact Component.counts_hold_iff (by omega)
  refine ⟨fun n h => ⟨?_, ?_, hwords n h⟩, fun n m hle hcounts hn hm => ?_⟩
  · rw [resolve_eq_place hc, Component.number_place hc, hwords n h, Component.number_add_iff hc]
  · rw [resolve_eq_place hc, (Component.place_injective hc).eq_iff, hwords n h,
      Component.number_add_iff hc]
  · rw [List.forall_mem_append, hwords n hn, hwords m hm] at hcounts
    rw [resolve_eq_place hc, resolve_eq_place hc, (Component.number_add_iff hc).2 hcounts.1,
      (Component.number_add_iff hc).2 hcounts.2]
    exact Component.place_le_place (by omega)

theorem resolve_exact_iff_past_hours :
    Component.hour ≠ .unset ∧ (Instant.ofFields 2022 10 14 9 30 0 0).Civil ∧
    (Component.hour.place .beginning
      (Component.hour.number (.ofFields 2022 10 14 9 30 0 0) + -2562047)).Civil ∧
    resolve ⟨.hour, -2562047, .beginning⟩ (.ofFields 2022 10 14 9 30 0 0) =
      .ofFields 1730 7 5 10 0 0 0 := by
  have hhour : Component.hour ≠ .unset := by decide
  have hnow : (Instant.ofFields 2022 10 14 9 30 0 0).Civil := by decide
  have hpast : (Component.hour.place .beginning
      (Component.hour.number (.ofFields 2022 10 14 9 30 0 0) + -2562047)).Civil := by decide
  refine ⟨hhour, hnow, hpast, ?_⟩
  have hwords := ((resolve_exact_iff .hour hhour .beginning _ hnow).1 (-2562047) hpast).2.1
  rw [hwords.2 (by decide)]
  decide

theorem resolve_past_hours_wraps :
    Word.Holds (-2562048) ∧ (-2562048 : Int) ≤ -2562047 ∧
    (Instant.ofFields 2022 10 14 9 30 0 0).Civil ∧
    Component.hour.place .beginning
      (Component.hour.number (.ofFields 2022 10 14 9 30 0 0) + -2562048) =
        .ofFields 1730 7 5 9 0 0 0 ∧
    resolve ⟨.hour, -2562048, .beginning⟩ (.ofFields 2022 10 14 9 30 0 0) =
      .ofFields 2315 1 24 9 0 0 0 ∧
    resolve ⟨.hour, -2562047, .beginning⟩ (.ofFields 2022 10 14 9 30 0 0) <
      resolve ⟨.hour, -2562048, .beginning⟩ (.ofFields 2022 10 14 9 30 0 0) := by
  decide

end RelativeDate

end TenantQuery
