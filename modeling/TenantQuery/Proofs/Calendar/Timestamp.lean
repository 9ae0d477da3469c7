import TenantQuery.Proofs.Calendar.FullForm

namespace TenantQuery

namespace Timestamp

open Calendar

theorem representable_whole {t u : Instant} {rest : List Char} (ht : t.Representable)
    (h : whole t rest = some u) : u.Representable := by
  unfold whole at h
  split at h
  · cases h
    exact ht
  · cases h

theorem representable_of_readChars {cs : List Char} {t : Instant} (h : readChars cs = some t) :
    t.Representable := by
  obtain ⟨read, hread, h⟩ := List.exists_of_findSome?_eq_some h
  simp only [List.mem_cons, List.not_mem_nil, or_false] at hread
  have hfields {year month day hour minute second nanos : Int} {rest : List Char} {u : Instant}
      (h : whole (.ofFields year month day hour minute second nanos) rest = some u) :
      u.Representable :=
    representable_whole (Instant.representable_wrap _) h
  rcases hread with rfl | rfl | rfl | rfl | rfl | rfl | rfl
  · obtain ⟨⟨u, offset⟩, hoffset, rfl⟩ := Option.map_eq_some_iff.1 h
    iterate 5 obtain ⟨_, -, hoffset⟩ := Option.bind_eq_some_iff.1 hoffset
    obtain ⟨u, hwhole, hoffset⟩ := Option.bind_eq_some_iff.1 hoffset
    cases hoffset
    exact hfields hwhole
  · iterate 4 obtain ⟨_, -, h⟩ := Option.bind_eq_some_iff.1 h
    exact hfields h
  · iterate 3 obtain ⟨_, -, h⟩ := Option.bind_eq_some_iff.1 h
    exact hfields h
  · obtain ⟨_, -, h⟩ := Option.bind_eq_some_iff.1 h
    exact hfields h
  · iterate 2 obtain ⟨_, -, h⟩ := Option.bind_eq_some_iff.1 h
    exact hfields h
  · obtain ⟨_, -, h⟩ := Option.bind_eq_some_iff.1 h
    exact hfields h
  · iterate 13 obtain ⟨_, -, h⟩ := Option.bind_eq_some_iff.1 h
    exact hfields h

end Timestamp

namespace Instant

open Calendar Timestamp

/-- What the written form keeps of an instant: its whole milliseconds. -/
def settled (t : Instant) : Instant :=
  ⟨t.nanos / 1000000 * 1000000⟩

theorem date_lt (t : Instant) : t.date.month.toNat < 100 ∧ t.date.day.toNat < 100 := by
  have hmonth := t.date_valid.month_le
  have hday := t.date_valid.day_le
  have hlast : daysInMonth t.date.year t.date.month ≤ 31 := by
    unfold daysInMonth
    split_ifs <;> decide
  omega

/-- The written form of an instant, field by field. -/
def fullForm (t : Instant) : FullForm where
  sign := if t.date.year < 0 then ['-'] else []
  year := padded 4 t.date.year.natAbs
  month := ⟨t.date.month.toNat, t.date_lt.1⟩
  day := ⟨t.date.day.toNat, t.date_lt.2⟩
  hour := ⟨t.hourOf, Nat.lt_trans t.clock_lt.1 (by decide)⟩
  minute := ⟨t.minuteOf, Nat.lt_trans t.clock_lt.2.1 (by decide)⟩
  second := ⟨t.secondOf, Nat.lt_trans t.clock_lt.2.2.1 (by decide)⟩
  fraction := padded 3 t.milliOf
  isSign := by split <;> simp
  year_ne_nil := padded_ne_nil (by decide) _
  isDigit_year _ := isDigit_of_mem_padded
  isDigit_fraction _ := isDigit_of_mem_padded

theorem write_eq (t : Instant) : write t = t.fullForm.chars := by
  have hyear : yearText t.date.year = t.fullForm.sign ++ t.fullForm.year := by
    simp only [yearText, fullForm]
    split <;> rfl
  have hfraction : t.fullForm.fractionText = '.' :: padded 3 t.milliOf :=
    if_neg (padded_ne_nil (by decide) _)
  simp only [write, dateText, hyear, clockText, FullForm.chars, FullForm.tail, FullForm.clock,
    hfraction]
  simp [fullForm, hourOf, minuteOf, secondOf, milliOf]

theorem wire_eq (t : Instant) : t.wire = t.fullForm.text := by
  rw [wire, write_eq, FullForm.text]

theorem yearNumber_fullForm (t : Instant) : t.fullForm.yearNumber = t.date.year := by
  rcases Int.lt_or_le t.date.year 0 with hneg | hpos
  · simp only [FullForm.yearNumber, fullForm, natOf_padded, if_pos hneg, ↓reduceIte]
    omega
  · have hsign : [] ≠ ['-'] := by simp
    simp only [FullForm.yearNumber, fullForm, natOf_padded, if_neg (Int.not_lt.2 hpos), if_neg hsign]
    omega

/-- Three digits after the point are milliseconds. -/
theorem nanosOf_milliOf (t : Instant) : nanosOf (padded 3 t.milliOf) = t.milliOf * 1000000 := by
  have hlength := length_padded 3 (by decide) t.clock_lt.2.2.2
  rw [nanosOf, List.take_of_length_le (by omega), natOf_padded, hlength]
  rfl

theorem date_fullForm (t : Instant) : t.fullForm.date = t.date := by
  have hmonth := t.date_valid.month_pos
  have hday := t.date_valid.day_pos
  rw [FullForm.date, yearNumber_fullForm]
  simp only [fullForm, Int.toNat_of_nonneg (show 0 ≤ t.date.month by omega),
    Int.toNat_of_nonneg (show 0 ≤ t.date.day by omega)]

theorem total_fullForm (t : Instant) : t.fullForm.total = t.settled := by
  have hfields : t.fullForm.total = total t.fullForm.date.year t.fullForm.date.month
      t.fullForm.date.day t.hourOf t.minuteOf t.secondOf (nanosOf (padded 3 t.milliOf)) := rfl
  rw [hfields, date_fullForm, total_clock, nanosOf_milliOf]
  simp only [settled, mk.injEq, unixSeconds, milliOf, subsecond, nanosPerSecond]
  omega

theorem inRange_fullForm (t : Instant) : t.fullForm.InRange := by
  rw [FullForm.InRange, date_fullForm]
  exact ⟨t.date_valid, t.clock_lt.1, t.clock_lt.2.1, t.clock_lt.2.2.1⟩

theorem Representable.settled {t : Instant} (h : t.Representable) : t.settled.Representable := by
  refine representable_of_unixSeconds h ?_
  simp only [Instant.settled, unixSeconds, nanosPerSecond]
  omega

theorem instant_fullForm {t : Instant} (h : t.Representable) : t.fullForm.instant = t.settled := by
  rw [FullForm.instant_eq_total _ t.inRange_fullForm, total_fullForm]
  rw [total_fullForm]
  exact h.settled

theorem date_settled (t : Instant) : t.settled.date = t.date := by
  simp only [date, day, settled, nanosPerDay, nanosPerSecond]
  congr 1
  omega

theorem wire_settled (t : Instant) : t.settled.wire = t.wire := by
  have hseconds : t.settled.timeOfDay / nanosPerSecond = t.timeOfDay / nanosPerSecond := by
    simp only [timeOfDay, settled, nanosPerDay, nanosPerSecond]
    omega
  have hmillis : t.settled.subsecond / 1000000 = t.subsecond / 1000000 := by
    simp only [subsecond, settled, nanosPerSecond]
    omega
  rw [wire, wire, write, write, date_settled, hseconds, hmillis]

theorem toNat_lt_of_mem_write {t : Instant} {c : Char} (h : c ∈ write t) :
    43 ≤ c.toNat ∧ c.toNat < 0x5b ∧ c ≠ '/' := by
  rw [write_eq] at h
  exact t.fullForm.toNat_of_mem_chars h

theorem all_write (t : Instant) : (write t).all (·.toNat < 0xc0) = true := by
  refine List.all_eq_true.2 fun c hc => decide_eq_true ?_
  have hrange := (toNat_lt_of_mem_write hc).2.1
  omega

theorem representable_of_parse {s : String} {t : Instant} (h : parse s = .ok t) :
    t.Representable := by
  unfold parse at h
  split at h
  · cases h
    exact representable_of_readChars ‹_›
  · cases h

theorem parse_wire {t : Instant} (h : t.Representable) : parse t.wire = .ok t.settled := by
  have haccepted : t.fullForm.Accepted := by
    refine .inr ⟨?_, ?_⟩
    · rw [yearNumber_fullForm]
      exact h.holds_year
    · rw [fullForm, length_padded 3 (by decide) t.clock_lt.2.2.2]
      decide
  rw [wire_eq, FullForm.parse_text, if_pos haccepted, instant_fullForm h]

end Instant

end TenantQuery
