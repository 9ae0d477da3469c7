import TenantQuery.Calendar.Zoned
import TenantQuery.Proofs.Calendar.Timestamp
import TenantQuery.Proofs.Json.Invariant

namespace TenantQuery

namespace Timestamp

open Calendar Decimal

def significant (nanos : Nat) : List Char :=
  ((padded 9 nanos).reverse.dropWhile (· == '0')).reverse

theorem padded_eq_significant (nanos : Nat) :
    ∃ k, padded 9 nanos = significant nanos ++ List.replicate k '0' := by
  have hzeros : ∀ c ∈ (padded 9 nanos).reverse.takeWhile (· == '0'), c = '0' := by
    intro c hc
    simpa using List.all_eq_true.1 List.all_takeWhile c hc
  refine ⟨((padded 9 nanos).reverse.takeWhile (· == '0')).length, ?_⟩
  have hsplit : (padded 9 nanos).reverse.takeWhile (· == '0') ++
      (padded 9 nanos).reverse.dropWhile (· == '0') = (padded 9 nanos).reverse :=
    List.takeWhile_append_dropWhile
  rw [List.eq_replicate_of_mem hzeros] at hsplit
  rw [significant, ← List.reverse_replicate, ← List.reverse_append, hsplit, List.reverse_reverse]

theorem isDigit_of_mem_significant {nanos : Nat} {c : Char} (h : c ∈ significant nanos) :
    isDigit c = true := by
  obtain ⟨k, hk⟩ := padded_eq_significant nanos
  exact isDigit_of_mem_padded (by rw [hk]; exact List.mem_append_left _ h)

theorem nanosOf_significant {nanos : Nat} (h : nanos < 10 ^ 9) :
    nanosOf (significant nanos) = nanos := by
  obtain ⟨k, hk⟩ := padded_eq_significant nanos
  have hlength := length_padded 9 (by decide) h
  rw [hk, List.length_append, List.length_replicate] at hlength
  have hvalue : natOf (significant nanos) * 10 ^ k = nanos := by
    have hpadded := natOf_padded 9 nanos
    rwa [hk, natOf_append, natOf_replicate_zero, List.length_replicate, Nat.add_zero] at hpadded
  have hk : 9 - (significant nanos).length = k := by omega
  rw [nanosOf, List.take_of_length_le (by omega), hk]
  exact_mod_cast hvalue

end Timestamp

namespace ZonedTime

open Calendar Timestamp

theorem fractionText_eq (nanos : Nat) : fractionText nanos =
    if (significant nanos).isEmpty then [] else '.' :: significant nanos :=
  rfl

theorem readFraction_text {nanos : Nat} (h : nanos < 10 ^ 9) {c : Char}
    (hc : isDigit c = false ∧ c ≠ '.' ∧ c ≠ ',') (rest : List Char) :
    readFraction (fractionText nanos ++ c :: rest) = ((nanos : Int), c :: rest) := by
  have hvalue := nanosOf_significant h
  rw [fractionText_eq]
  split
  · rename_i hempty
    rw [List.isEmpty_iff.1 hempty] at hvalue
    rw [← hvalue]
    cases rest with
    | nil => rfl
    | cons d rest => simp [readFraction, hc, nanosOf, Decimal.natOf]
  · rename_i hempty
    rw [List.cons_append, readFraction_digits (by simpa using hempty)
      (fun _ => isDigit_of_mem_significant) hc.1, hvalue]

/-- The time of day and the date where the timestamp was written. -/
def here (t : ZonedTime) : Instant :=
  ⟨t.instant.nanos + t.offset * nanosPerSecond⟩

/-- A zone less than a day away, which is one that can be written. -/
def Near (t : ZonedTime) : Prop :=
  t.offset.natAbs < 24 * 3600

/-- A year of four digits, and a zone in whole minutes. -/
structure Readable (t : ZonedTime) : Prop where
  year_nonneg : 0 ≤ t.here.date.year
  year_lt : t.here.date.year < 10000
  minutes : t.offset % 60 = 0

theorem readZone_text {offset : Int} (hminutes : offset % 60 = 0)
    (hday : offset.natAbs < 24 * 3600) : readZone (zoneText offset) = some (offset, []) := by
  unfold zoneText
  split
  · rename_i hzero
    rw [hzero]
    rfl
  · rename_i hzero
    have hhour : offset.natAbs / 60 / 60 < 100 := by omega
    have hminute : offset.natAbs / 60 % 60 < 100 := by omega
    have hread (sign : Char) (hsign : sign ≠ 'Z') :
        readZone (sign :: (padded 2 (offset.natAbs / 60 / 60) ++ ':' ::
          padded 2 (offset.natAbs / 60 % 60))) =
        if sign = '+' then some ((offset.natAbs : Int), [])
        else if sign = '-' then some (-(offset.natAbs : Int), []) else none := by
      have hrest : readTwo (padded 2 (offset.natAbs / 60 % 60)) =
          some (((offset.natAbs / 60 % 60 : Nat) : Int), []) := by
        simpa using readTwo_padded hminute []
      have hvalue : (((offset.natAbs / 60 / 60 : Nat) : Int) * 60 +
          ((offset.natAbs / 60 % 60 : Nat) : Int)) * 60 = offset.natAbs := by omega
      have hrange : ¬ (24 < ((offset.natAbs / 60 / 60 : Nat) : Int) ∨
          60 < ((offset.natAbs / 60 % 60 : Nat) : Int)) := by omega
      rw [readZone.eq_def]
      simp only [readTwo_padded hhour, readMark_self, hrest, Option.bind_eq_bind, Option.bind_some,
        hrange, if_false, hvalue, Option.pure_def]
    rcases Int.lt_or_gt_of_ne hzero with hneg | hpos
    · rw [if_pos hneg, hread '-' (by decide), if_neg (by decide), if_pos rfl]
      have : -(offset.natAbs : Int) = offset := by omega
      rw [this]
    · rw [if_neg (by omega), hread '+' (by decide), if_pos rfl]
      have : (offset.natAbs : Int) = offset := by omega
      rw [this]

theorem zoneText_eq_cons (offset : Int) :
    ∃ c rest, zoneText offset = c :: rest ∧ isDigit c = false ∧ c ≠ '.' ∧ c ≠ ',' := by
  unfold zoneText
  split
  · exact ⟨_, _, rfl, by decide⟩
  · split <;> exact ⟨_, _, rfl, by decide⟩

theorem atTime_east {d : Date} {hour minute second offset nanos : Int}
    (hyear : 0 ≤ d.year ∧ d.year < 10000) (hvalid : d.Valid) (hhour : 0 ≤ hour ∧ hour < 24)
    (hminute : 0 ≤ minute ∧ minute < 60) (hsecond : 0 ≤ second ∧ second < 60)
    (hnanos : 0 ≤ nanos ∧ nanos < 10 ^ 9) (hoffset : offset.natAbs ≤ 25 * 3600) :
    atTime d hour minute (second - offset) nanos =
      ⟨(Instant.total d.year d.month d.day hour minute second nanos).nanos -
        offset * nanosPerSecond⟩ := by
  have heast : Instant.total d.year d.month d.day hour minute (second - offset) nanos =
      ⟨(Instant.total d.year d.month d.day hour minute second nanos).nanos -
        offset * nanosPerSecond⟩ := by
    simp only [Instant.total, nanosPerSecond, Instant.mk.injEq]
    omega
  have hdate := Instant.date_total hhour hminute hsecond hnanos hvalid
  generalize Instant.total d.year d.month d.day hour minute second nanos = t at heast hdate ⊢
  have hrepresentable : Instant.Representable ⟨t.nanos - offset * nanosPerSecond⟩ := by
    obtain ⟨hbegun, hended⟩ := yearOfDay_spec (t.day + epochDay)
    rw [← Instant.year_eq, hdate] at hbegun hended
    have hdays : -800000 ≤ t.day ∧ t.day ≤ 4000000 := by
      simp only [daysBeforeYear, epochDay] at hbegun hended
      omega
    simp only [Instant.Representable, Instant.firstNano_eq, Instant.nanosInAll_eq, Instant.day,
      nanosPerDay, nanosPerSecond] at hdays ⊢
    omega
  rw [atTime, Instant.ofFields_eq_total hvalid, heast]
  · simp only [Instant.firstYear]
    omega
  · simp only [Word.half]
    omega
  · rw [heast]
    exact hrepresentable

theorem parse?_text {t : ZonedTime} (h : t.Readable) (hnear : t.Near) :
    parse? t.text = some t := by
  obtain ⟨hhour, hminute, hsecond, -⟩ := t.here.clock_lt
  have hyear := h.year_nonneg
  have hyear' := h.year_lt
  have hmonth := t.here.date_valid.month_pos
  have hday := t.here.date_valid.day_pos
  have hnanos : t.here.subsecond.toNat < 10 ^ 9 ∧
      ((t.here.subsecond.toNat : Nat) : Int) = t.here.subsecond := by
    simp only [Instant.subsecond, nanosPerSecond]
    omega
  have htext : t.text.toList = padded 4 t.here.date.year.toNat ++ '-' ::
      (padded 2 t.here.date.month.toNat ++ '-' :: (padded 2 t.here.date.day.toNat ++ ('T' ::
        (padded 2 t.here.hourOf ++ (':' :: (padded 2 t.here.minuteOf ++ (':' ::
          (padded 2 t.here.secondOf ++ (fractionText t.here.subsecond.toNat ++
            zoneText t.offset))))))))) := by
    have hyearText : yearText t.here.date.year = padded 4 t.here.date.year.toNat := by
      rw [yearText, if_neg (by omega), show t.here.date.year.natAbs = t.here.date.year.toNat by omega]
    rw [← hyearText]
    simp [text, dateText, clockText, here, Instant.hourOf, Instant.minuteOf, Instant.secondOf]
  have hdate (rest : List Char) :
      readDate (padded 4 t.here.date.year.toNat ++ '-' :: (padded 2 t.here.date.month.toNat ++ '-' ::
        (padded 2 t.here.date.day.toNat ++ rest))) = some (t.here.date, rest) := by
    have hvalue : Date.mk (Decimal.natOf (padded 4 t.here.date.year.toNat)) t.here.date.month.toNat
        t.here.date.day.toNat = t.here.date := by
      simp only [natOf_padded, Int.toNat_of_nonneg hyear,
        Int.toNat_of_nonneg (show 0 ≤ t.here.date.month by omega),
        Int.toNat_of_nonneg (show 0 ≤ t.here.date.day by omega)]
    rw [readDate_digits (length_padded 4 (by decide) (by omega)) (fun _ => isDigit_of_mem_padded)
      t.here.date_lt.1 t.here.date_lt.2, hvalue, if_pos t.here.date_valid]
  have hzone := readZone_text h.minutes hnear
  obtain ⟨c, rest, hcons, hc⟩ := zoneText_eq_cons t.offset
  rw [hcons] at hzone
  have hinstant : atTime t.here.date t.here.hourOf t.here.minuteOf (t.here.secondOf - t.offset)
      t.here.subsecond = t.instant := by
    have hwhole : t.here.unixSeconds * nanosPerSecond + t.here.subsecond = t.here.nanos := by
      simp only [Instant.unixSeconds, Instant.subsecond, nanosPerSecond]
      omega
    rw [atTime_east ⟨hyear, hyear'⟩ t.here.date_valid (by omega) (by omega) (by omega)
      (by omega) (Nat.le_trans (Nat.le_of_lt hnear) (by decide)), Instant.total_clock, hwhole, here,
      Int.add_sub_cancel]
  simp only [parse?, htext, hcons, readOffset, hdate,
    readHour_padded (show t.here.hourOf < 100 by omega),
    readSixty_padded (show t.here.minuteOf < 100 by omega),
    readSixty_padded (show t.here.secondOf < 100 by omega), hhour, hminute, hsecond,
    readFraction_text hnanos.1 hc, hzone, hnanos.2, whole, List.isEmpty_nil, if_true,
    Option.bind_eq_bind, Option.bind_some, Option.pure_def, Option.map_some, hinstant]

theorem digit_nonneg (c : Char) : 0 ≤ digit c :=
  Int.natCast_nonneg _

theorem readFour_bounds {cs rest : List Char} {n : Int} (h : readFour cs = some (n, rest)) :
    0 ≤ n ∧ n < 10000 := by
  obtain ⟨digits, hlength, hdigits, rfl, -⟩ := readFour_eq_some.1 h
  have hvalue := Decimal.natOf_lt hdigits
  rw [hlength] at hvalue
  omega

theorem readTwo_nonneg {cs rest : List Char} {n : Int} (h : readTwo cs = some (n, rest)) :
    0 ≤ n := by
  unfold readTwo at h
  split at h
  · rename_i a b rest'
    split at h
    · cases h
      have := digit_nonneg a
      have := digit_nonneg b
      omega
    · cases h
  · cases h

theorem readOneOrTwo_nonneg {cs rest : List Char} {n : Int}
    (h : readOneOrTwo cs = some (n, rest)) : 0 ≤ n := by
  unfold readOneOrTwo at h
  split at h
  · rename_i a b rest'
    have := digit_nonneg a
    have := digit_nonneg b
    split at h
    · split at h <;> cases h <;> omega
    · cases h
  · rename_i a
    have := digit_nonneg a
    split at h <;> cases h
    omega
  · cases h

theorem ranged_eq_some {α : Type} {p : Prop} [Decidable p] {a b : α}
    (h : (if p then some a else none) = some b) : p ∧ a = b := by
  split at h
  · rename_i hp
    exact ⟨hp, Option.some.inj h⟩
  · cases h

theorem readDate_bounds {cs rest : List Char} {d : Date} (h : readDate cs = some (d, rest)) :
    0 ≤ d.year ∧ d.year < 10000 ∧ d.Valid := by
  obtain ⟨⟨year, rest⟩, hyear, h⟩ := Option.bind_eq_some_iff.1 h
  obtain ⟨⟨month, rest⟩, hmonth, h⟩ := Option.bind_eq_some_iff.1 h
  obtain ⟨rest, -, h⟩ := Option.bind_eq_some_iff.1 h
  obtain ⟨⟨day, rest⟩, -, h⟩ := Option.bind_eq_some_iff.1 h
  obtain ⟨hday, h⟩ := ranged_eq_some h
  cases h
  obtain ⟨rest, -, hmonth⟩ := Option.bind_eq_some_iff.1 hmonth
  obtain ⟨⟨month, rest⟩, -, hmonth⟩ := Option.bind_eq_some_iff.1 hmonth
  obtain ⟨hrange, hmonth⟩ := ranged_eq_some hmonth
  cases hmonth
  obtain ⟨hlow, hhigh⟩ := readFour_bounds hyear
  exact ⟨hlow, hhigh, hrange.1, hrange.2, hday.1, hday.2⟩

theorem readHour_bounds {cs rest : List Char} {n : Int} (h : readHour cs = some (n, rest)) :
    0 ≤ n ∧ n < 24 := by
  obtain ⟨rest, -, h⟩ := Option.bind_eq_some_iff.1 h
  obtain ⟨⟨hour, rest⟩, hhour, h⟩ := Option.bind_eq_some_iff.1 h
  obtain ⟨hrange, h⟩ := ranged_eq_some h
  cases h
  exact ⟨readOneOrTwo_nonneg hhour, hrange⟩

theorem readSixty_bounds {cs rest : List Char} {n : Int} (h : readSixty cs = some (n, rest)) :
    0 ≤ n ∧ n < 60 := by
  obtain ⟨rest, -, h⟩ := Option.bind_eq_some_iff.1 h
  obtain ⟨⟨n, rest⟩, hn, h⟩ := Option.bind_eq_some_iff.1 h
  obtain ⟨hrange, h⟩ := ranged_eq_some h
  cases h
  exact ⟨readTwo_nonneg hn, hrange⟩

theorem readFraction_bounds (cs : List Char) :
    0 ≤ (readFraction cs).1 ∧ (readFraction cs).1 < 10 ^ 9 := by
  unfold readFraction
  split
  · rename_i mark c rest
    split
    · rename_i hmark
      refine nanosOf_bounds (List.forall_mem_cons.2 ⟨hmark.2, ?_⟩)
      exact List.all_eq_true.1 List.all_takeWhile
    · simp
  · simp

theorem readZone_bounds {cs rest : List Char} {offset : Int}
    (h : readZone cs = some (offset, rest)) : offset % 60 = 0 ∧ offset.natAbs ≤ 25 * 3600 := by
  unfold readZone at h
  split at h
  · cases h
    decide
  · obtain ⟨⟨hour, rest⟩, hhour, h⟩ := Option.bind_eq_some_iff.1 h
    obtain ⟨rest, -, h⟩ := Option.bind_eq_some_iff.1 h
    obtain ⟨⟨minute, rest⟩, hminute, h⟩ := Option.bind_eq_some_iff.1 h
    have hhour := readTwo_nonneg hhour
    have hminute := readTwo_nonneg hminute
    by_cases hrange : 24 < hour ∨ 60 < minute
    · simp [hrange] at h
    · simp only [hrange, if_false, Option.pure_def] at h
      split at h
      · cases h
        omega
      · obtain ⟨-, h⟩ := ranged_eq_some h
        cases h
        omega
  · cases h

/-- What is read is a valid date with a time of day, in a zone of whole minutes. -/
theorem readOffset_eq_some {cs : List Char} {t : Instant} {offset : Int}
    (h : readOffset cs = some (t, offset)) :
    ∃ date hour minute second nanos, (0 ≤ date.year ∧ date.year < 10000 ∧ date.Valid) ∧
      (0 ≤ hour ∧ hour < 24) ∧ (0 ≤ minute ∧ minute < 60) ∧ (0 ≤ second ∧ second < 60) ∧
      (0 ≤ nanos ∧ nanos < 10 ^ 9) ∧ (offset % 60 = 0 ∧ offset.natAbs ≤ 25 * 3600) ∧
      t = atTime date hour minute (second - offset) nanos := by
  obtain ⟨⟨date, rest⟩, hdate, h⟩ := Option.bind_eq_some_iff.1 h
  obtain ⟨⟨hour, rest⟩, hhour, h⟩ := Option.bind_eq_some_iff.1 h
  obtain ⟨⟨minute, rest⟩, hminute, h⟩ := Option.bind_eq_some_iff.1 h
  obtain ⟨⟨second, rest⟩, hsecond, h⟩ := Option.bind_eq_some_iff.1 h
  have hnanos := readFraction_bounds rest
  dsimp only at h
  generalize readFraction rest = fraction at h hnanos
  obtain ⟨⟨offset, rest⟩, hzone, h⟩ := Option.bind_eq_some_iff.1 h
  obtain ⟨t, ht, h⟩ := Option.bind_eq_some_iff.1 h
  obtain ⟨-, rfl⟩ := ranged_eq_some ht
  cases h
  exact ⟨date, hour, minute, second, fraction.1, readDate_bounds hdate, readHour_bounds hhour,
    readSixty_bounds hminute, readSixty_bounds hsecond, hnanos, readZone_bounds hzone, rfl⟩

theorem readable_of_parse? {s : String} {t : ZonedTime} (h : parse? s = some t) : t.Readable := by
  obtain ⟨⟨instant, offset⟩, hread, rfl⟩ := Option.map_eq_some_iff.1 h
  obtain ⟨date, hour, minute, second, nanos, ⟨hlow, hhigh, hvalid⟩, hhour, hminute, hsecond, hnanos,
    ⟨hminutes, hoffset⟩, rfl⟩ := readOffset_eq_some hread
  have hdate : (here ⟨atTime date hour minute (second - offset) nanos, offset⟩).date = date := by
    rw [here, atTime_east ⟨hlow, hhigh⟩ hvalid hhour hminute hsecond hnanos hoffset,
      Int.sub_add_cancel, Instant.date_total hhour hminute hsecond hnanos hvalid]
  exact ⟨by rw [hdate]; exact hlow, by rw [hdate]; exact hhigh, hminutes⟩

theorem readable_zero : Readable zero :=
  ⟨by decide, by decide, by decide⟩

theorem readable_of_read {j : Json} {t : ZonedTime} (h : read j = .ok t) : t.Readable := by
  cases j with
  | string s =>
      simp only [read] at h
      split at h
      · rename_i hparse
        cases h
        exact readable_of_parse? hparse
      · cases h
  | null | bool _ | number _ | array _ | object _ => cases h

theorem slot_ensures : Json.Slot.Ensures slot Readable :=
  .kept readable_zero fun _ _ => readable_of_read

def written (t : ZonedTime) : Json :=
  .string t.text

theorem encode_eq_ok {t : ZonedTime} {j : Json} :
    t.encode = .ok j ↔ t.Near ∧ j = t.written := by
  unfold encode Near
  split
  · rename_i hday
    simp only [reduceCtorEq, false_iff, not_and]
    omega
  · rename_i hday
    simp only [Except.ok.injEq, written]
    exact ⟨fun h => ⟨by omega, h.symm⟩, fun h => h.2.symm⟩

theorem toNat_lt_of_isDigit {c : Char} (h : isDigit c = true) : c.toNat < 0xc0 := by
  have hrange : 48 ≤ c.toNat ∧ c.toNat ≤ 57 := by
    simpa [isDigit, Decimal.isDigit, Char.le_def, UInt32.le_iff_toNat_le] using h
  omega

/-- A timestamp is composed already, since it is digits and the marks between them. -/
theorem normal_text (t : ZonedTime) : Text.normal t.text = t.text := by
  have hdigits (digits : List Char) (h : ∀ c ∈ digits, isDigit c = true) :
      digits.all (·.toNat < 0xc0) = true := by
    rw [List.all_eq_true]
    exact fun c hc => decide_eq_true (toNat_lt_of_isDigit (h c hc))
  have hpadded (width n : Nat) : (padded width n).all (·.toNat < 0xc0) = true :=
    hdigits _ fun _ => isDigit_of_mem_padded
  have hyear (year : Int) : (yearText year).all (·.toNat < 0xc0) = true := by
    unfold yearText
    split
    · rw [List.all_cons, hpadded]
      rfl
    · exact hpadded _ _
  have hfraction (nanos : Nat) : (fractionText nanos).all (·.toNat < 0xc0) = true := by
    rw [fractionText_eq]
    split
    · rfl
    · rw [List.all_cons, hdigits _ fun c hc => isDigit_of_mem_significant hc]
      rfl
  have hzone (offset : Int) : (zoneText offset).all (·.toNat < 0xc0) = true := by
    unfold zoneText
    split
    · rfl
    · rw [List.all_cons, List.all_append, List.all_cons, hpadded, hpadded]
      split <;> rfl
  refine Text.normal_eq_self ?_
  simp [-List.all_eq_true, text, dateText, clockText, hpadded, hyear, hfraction, hzone]

theorem read_written {t : ZonedTime} (h : t.Readable) (hnear : t.Near) :
    read t.written = .ok t := by
  simp only [written, read, parse?_text h hnear]

theorem settled_written (t : ZonedTime) : t.written.settled = t.written := by
  rw [written, Json.settled_string, normal_text]

theorem codes {t : ZonedTime} (h : t.Readable) (hnear : t.Near) :
    Json.Codes written read t t t where
  alike := .refl trivial
  notNull := rfl
  reads _ := by rw [settled_written, read_written h hnear]

theorem codes_slot {t : ZonedTime} (h : t.Readable) (hnear : t.Near) :
    Json.Codes written (slot []) t t t where
  alike := .refl trivial
  notNull := rfl
  reads _ := by
    rw [settled_written, ← read_written h hnear]
    rfl

end ZonedTime

end TenantQuery
