import TenantQuery.Proofs.Calendar.Tiling

namespace TenantQuery

open Calendar

namespace Component

variable {c : Component} {n : Int}

theorem hourSpan_eq_iff : Instant.hourSpan n = n * nanosPerHour ↔ n.natAbs ≤ 2562047 := by
  simp only [Instant.hourSpan, Int.bmod, Word.count, nanosPerHour, nanosPerSecond]
  split_ifs <;> omega

theorem shifts_of_le (hc : c ≠ .unset) (hn : c = .hour → n.natAbs ≤ 2562047) : c.Shifts n :=
  ⟨hc, fun h => hourSpan_eq_iff.2 (hn h)⟩

theorem beginningOf_add (h : c.Shifts n) (t : Instant) :
    (t.add c n).beginningOf c = (t.beginningOf c).add c n := by
  rw [beginningOf_eq, beginningOf_eq, add_startOf h, number_add h]

end Component

namespace RelativeDate

variable {c : Component} {n : Int}

theorem resolve_beginning (h : c.Shifts n) (now : Instant) :
    resolve ⟨c, n, .beginning⟩ now = c.startOf (c.number now + n) := by
  simp only [resolve, Component.beginningOf_eq, Component.number_add h]

theorem resolve_ending (h : c.Shifts n) (now : Instant) :
    resolve ⟨c, n, .ending⟩ now = (c.startOf (c.number now + n + 1)).addSeconds (-1) := by
  simp only [resolve, Component.endOf_eq h.unit, Component.number_add h]

end RelativeDate

theorem RelativeInterval.start_lt_stop {c : Component} {n m : Int} (hn : c.Shifts n) (hm : c.Shifts m)
    (h : n ≤ m) (now : Instant) :
    (resolve ⟨⟨c, n, .beginning⟩, ⟨c, m, .ending⟩⟩ now).start <
      (resolve ⟨⟨c, n, .beginning⟩, ⟨c, m, .ending⟩⟩ now).stop := by
  have hlength := Component.startOf_add_hour_le hn.unit
    (show c.number now + n < c.number now + m + 1 by omega)
  simp only [resolve, RelativeDate.resolve_beginning hn, RelativeDate.resolve_ending hm,
    Instant.lt_iff, Instant.addSeconds, Instant.addNanos]
  simp only [nanosPerHour, nanosPerSecond] at hlength ⊢
  omega

/-- Units can be shifted by before or after going back to their beginning. Hence a relative date is
the same for all clocks of one unit, it ends a second before the next one begins, and a relative
window is not empty. Only the last needs that there is a unit at all. -/
theorem RelativeDate.resolve_by_units (c : Component) (n : Int)
    (hn : c = .hour → n.natAbs ≤ 2000000) :
    (∀ now : Instant, (now.add c n).beginningOf c = (now.beginningOf c).add c n) ∧
    (∀ (p : Position) (now now' : Instant), now.beginningOf c = now'.beginningOf c →
      resolve ⟨c, n, p⟩ now = resolve ⟨c, n, p⟩ now') ∧
    (∀ now, resolve ⟨c, n, .ending⟩ now = (resolve ⟨c, n + 1, .beginning⟩ now).addSeconds (-1)) ∧
    (c ≠ .unset → ∀ m, n ≤ m → (c = .hour → m.natAbs ≤ 2000000) → ∀ now,
      (RelativeInterval.resolve ⟨⟨c, n, .beginning⟩, ⟨c, m, .ending⟩⟩ now).start <
        (RelativeInterval.resolve ⟨⟨c, n, .beginning⟩, ⟨c, m, .ending⟩⟩ now).stop) := by
  by_cases hc : c = .unset
  · -- Without a unit nothing is shifted, and every instant is where it begins.
    subst hc
    refine ⟨fun _ => rfl, ?_, fun _ => rfl, fun h => absurd rfl h⟩
    rintro p now now' (rfl : now = now')
    rfl
  have hshifts : c.Shifts n := Component.shifts_of_le hc fun h => Nat.le_trans (hn h) (by decide)
  refine ⟨Component.beginningOf_add hshifts, ?_, ?_, ?_⟩
  · intro p now now' hunit
    rw [Component.beginningOf_eq, Component.beginningOf_eq] at hunit
    exact resolve_congr hshifts (Component.startOf_injective hunit)
  · intro now
    have hnext : c.Shifts (n + 1) := Component.shifts_of_le hc fun h => by
      have hbound := hn h
      omega
    rw [resolve_ending hshifts, resolve_beginning hnext, Int.add_assoc]
  · intro _ m hnm hm now
    have hshifts' : c.Shifts m := Component.shifts_of_le hc fun h => Nat.le_trans (hm h) (by decide)
    exact RelativeInterval.start_lt_stop hshifts hshifts' hnm now

theorem RelativeDate.resolve_by_units_leap_february :
    Component.month ≠ .unset ∧
    ((Instant.ofFields 2024 3 31 12 0 0 0).add .month (-1)).beginningOf .month =
      ((Instant.ofFields 2024 3 31 12 0 0 0).beginningOf .month).add .month (-1) ∧
    resolve ⟨.month, -1, .ending⟩ (.ofFields 2024 3 31 12 0 0 0) =
      resolve ⟨.month, -1, .ending⟩ (.ofFields 2024 3 1 0 0 0 0) ∧
    resolve ⟨.month, -1, .ending⟩ (.ofFields 2024 3 31 12 0 0 0) =
      (resolve ⟨.month, 0, .beginning⟩ (.ofFields 2024 3 31 12 0 0 0)).addSeconds (-1) ∧
    (RelativeInterval.resolve ⟨⟨.month, -1, .beginning⟩, ⟨.month, 0, .ending⟩⟩
        (.ofFields 2024 3 31 12 0 0 0)).start <
      (RelativeInterval.resolve ⟨⟨.month, -1, .beginning⟩, ⟨.month, 0, .ending⟩⟩
        (.ofFields 2024 3 31 12 0 0 0)).stop := by
  have hmonth : Component.month ≠ .unset := by decide
  obtain ⟨hsnap, hunit, hend, hwindow⟩ := resolve_by_units .month (-1) (by simp)
  exact ⟨hmonth, hsnap _, hunit _ _ _ (by decide), hend _, hwindow hmonth 0 (by decide) (by simp) _⟩

end TenantQuery
