import Mathlib.Data.List.Basic
import TenantQuery.Calendar.Timestamp
import TenantQuery.Proofs.Calendar.Representable
import TenantQuery.Proofs.Number.Digits

namespace TenantQuery

namespace Timestamp

open Calendar Decimal

theorem isDigit_of_mem_padded {width n : Nat} {c : Char} (h : c ∈ padded width n) :
    isDigit c = true := by
  rw [padded, List.mem_append] at h
  rcases h with h | h
  · rw [List.eq_of_mem_replicate h]
    rfl
  · exact isDigit_of_mem_toDigits h

theorem natOf_padded (width n : Nat) : natOf (padded width n) = n := by
  rw [padded, natOf_replicate_zero_append, natOf_toDigits]

theorem length_padded (width : Nat) {n : Nat} (hwidth : 0 < width) (hn : n < 10 ^ width) :
    (padded width n).length = width := by
  have hlength := (Nat.length_toDigits_le_iff (by decide) hwidth).2 hn
  rw [padded, List.length_append, List.length_replicate]
  omega

theorem padded_ne_nil {width : Nat} (hwidth : 0 < width) (n : Nat) : padded width n ≠ [] := by
  rw [← List.length_pos_iff, padded, List.length_append, List.length_replicate]
  omega

theorem natOf_two (a b : Char) : (natOf [a, b] : Int) = digit a * 10 + digit b := by
  simp [natOf, digit]
  omega

theorem padded_two {n : Nat} (hn : n < 100) :
    ∃ a b, padded 2 n = [a, b] ∧ isDigit a = true ∧ isDigit b = true ∧
      digit a * 10 + digit b = n := by
  have hlength := length_padded 2 (by decide) hn
  obtain ⟨a, b, hab⟩ : ∃ a b, padded 2 n = [a, b] := by
    match hab : padded 2 n with
    | [a, b] => exact ⟨a, b, rfl⟩
    | [] | [_] | _ :: _ :: _ :: _ => simp [hab] at hlength
  refine ⟨a, b, hab, ?_, ?_, ?_⟩
  · exact isDigit_of_mem_padded (by rw [hab]; simp)
  · exact isDigit_of_mem_padded (by rw [hab]; simp)
  · rw [← natOf_two, ← hab, natOf_padded]

theorem readTwo_padded {n : Nat} (hn : n < 100) (rest : List Char) :
    readTwo (padded 2 n ++ rest) = some ((n : Int), rest) := by
  obtain ⟨a, b, hab, ha, hb, hvalue⟩ := padded_two hn
  simp [hab, readTwo, ha, hb, hvalue]

theorem readOneOrTwo_padded {n : Nat} (hn : n < 100) (rest : List Char) :
    readOneOrTwo (padded 2 n ++ rest) = some ((n : Int), rest) := by
  obtain ⟨a, b, hab, ha, hb, hvalue⟩ := padded_two hn
  simp [hab, readOneOrTwo, ha, hb, hvalue]

theorem readMark_self (mark : Char) (rest : List Char) :
    readMark mark (mark :: rest) = some rest := by
  simp [readMark]

theorem readFour_eq_some {cs rest : List Char} {n : Int} :
    readFour cs = some (n, rest) ↔ ∃ digits, digits.length = 4 ∧ (∀ c ∈ digits, isDigit c = true) ∧
      (natOf digits : Int) = n ∧ cs = digits ++ rest := by
  have hvalue (a b c d : Char) : (natOf [a, b, c, d] : Int) =
      ((digit a * 10 + digit b) * 10 + digit c) * 10 + digit d := by
    simp [natOf, digit]
    omega
  constructor
  · intro h
    unfold readFour at h
    split at h
    · rename_i a b c d rest'
      split at h
      · rename_i hdigits
        cases h
        exact ⟨[a, b, c, d], rfl, by simpa [and_assoc] using hdigits, hvalue a b c d, rfl⟩
      · cases h
    · cases h
  · rintro ⟨digits, hlength, hdigits, rfl, rfl⟩
    obtain ⟨a, b, c, d, rfl⟩ := List.length_eq_four.1 hlength
    simp only [List.forall_mem_cons] at hdigits
    simp [readFour, hdigits, hvalue]

theorem bind_ranged {α β : Type} {p : Prop} [Decidable p] (a : α) (f : α → Option β) :
    (if p then some a else none).bind f = if p then f a else none := by
  split <;> rfl

theorem readMonth_padded {month : Nat} (h : month < 100) (rest : List Char) :
    readMonth ('-' :: (padded 2 month ++ rest)) =
      if 1 ≤ (month : Int) ∧ (month : Int) ≤ 12 then some ((month : Int), rest) else none := by
  simp only [readMonth, readMark_self, Option.bind_eq_bind, Option.bind_some, readTwo_padded h]
  rfl

theorem readHour_padded {hour : Nat} (h : hour < 100) (rest : List Char) :
    readHour ('T' :: (padded 2 hour ++ rest)) =
      if hour < 24 then some ((hour : Int), rest) else none := by
  simp only [readHour, readMark_self, Option.bind_eq_bind, Option.bind_some, readOneOrTwo_padded h]
  exact if_congr (by omega) rfl rfl

theorem readSixty_padded {n : Nat} (h : n < 100) (rest : List Char) :
    readSixty (':' :: (padded 2 n ++ rest)) =
      if n < 60 then some ((n : Int), rest) else none := by
  simp only [readSixty, readMark_self, Option.bind_eq_bind, Option.bind_some, readTwo_padded h]
  exact if_congr (by omega) rfl rfl

theorem readDate_digits {digits : List Char} (hlength : digits.length = 4)
    (hdigits : ∀ c ∈ digits, isDigit c = true) {month day : Nat} (hmonth : month < 100)
    (hday : day < 100) (rest : List Char) :
    readDate (digits ++ '-' :: (padded 2 month ++ '-' :: (padded 2 day ++ rest))) =
      if Date.Valid ⟨natOf digits, month, day⟩ then some (⟨natOf digits, month, day⟩, rest)
      else none := by
  have hfour (rest' : List Char) :
      readFour (digits ++ rest') = some ((natOf digits : Int), rest') :=
    readFour_eq_some.2 ⟨digits, hlength, hdigits, rfl, rfl⟩
  simp only [readDate, hfour, readMonth_padded hmonth, bind_ranged, readMark_self,
    Option.bind_eq_bind, Option.bind_some, readTwo_padded hday, Option.pure_def]
  rw [← ite_and]
  exact if_congr (Date.valid_iff (d := ⟨natOf digits, month, day⟩)).symm rfl rfl

theorem readFraction_digits {digits : List Char} (hne : digits ≠ [])
    (hdigits : ∀ c ∈ digits, isDigit c = true) {c : Char} (hc : isDigit c = false)
    (rest : List Char) :
    readFraction ('.' :: (digits ++ c :: rest)) = (nanosOf digits, c :: rest) := by
  obtain ⟨d, digits, rfl⟩ := List.exists_cons_of_ne_nil hne
  obtain ⟨hd, hdigits⟩ := List.forall_mem_cons.1 hdigits
  have hsplit : (digits ++ c :: rest).takeWhile isDigit = digits ∧
      (digits ++ c :: rest).dropWhile isDigit = c :: rest :=
    takeWhile_isDigit hdigits (by simpa [isDigit] using hc)
  simp only [List.cons_append, readFraction, hd, true_or, and_true, if_true, hsplit]

theorem readShortFraction_digits {digits : List Char} (hne : digits ≠ [])
    (hdigits : ∀ c ∈ digits, isDigit c = true) {c : Char} (hc : isDigit c = false)
    (rest : List Char) :
    readShortFraction ('.' :: (digits ++ c :: rest)) =
      if digits.length ≤ 9 then some (nanosOf digits, c :: rest) else none := by
  have hsplit : (digits ++ c :: rest).takeWhile isDigit = digits ∧
      (digits ++ c :: rest).dropWhile isDigit = c :: rest :=
    takeWhile_isDigit hdigits (by simpa [isDigit] using hc)
  simp only [readShortFraction, hsplit]
  by_cases hlength : digits.length ≤ 9
  · simp [hne, hlength]
  · simp [hne, hlength]

theorem nanosOf_bounds {digits : List Char} (h : ∀ c ∈ digits, isDigit c = true) :
    0 ≤ nanosOf digits ∧ nanosOf digits < 10 ^ 9 := by
  have hvalue : natOf (digits.take 9) < 10 ^ (digits.take 9).length :=
    natOf_lt fun c hc => h c (List.mem_of_mem_take hc)
  have hlength : (digits.take 9).length ≤ 9 := List.length_take_le 9 digits
  have hlt : natOf (digits.take 9) * 10 ^ (9 - (digits.take 9).length) < 10 ^ 9 := by
    calc natOf (digits.take 9) * 10 ^ (9 - (digits.take 9).length)
        < 10 ^ (digits.take 9).length * 10 ^ (9 - (digits.take 9).length) :=
          Nat.mul_lt_mul_of_pos_right hvalue (Nat.pow_pos (by decide))
      _ = 10 ^ 9 := by rw [← Nat.pow_add, Nat.add_sub_cancel' hlength]
  refine ⟨Int.mul_nonneg (Int.natCast_nonneg _) (Int.natCast_nonneg _), ?_⟩
  have hcast : nanosOf digits =
      ((natOf (digits.take 9) * 10 ^ (9 - (digits.take 9).length) : Nat) : Int) := by
    simp [nanosOf]
  rw [hcast]
  exact_mod_cast hlt

/-- A timestamp in full, with a year of any length after an optional sign, and two digits for each of
the other fields. Without digits for a fraction there is none. -/
structure FullForm where
  sign : List Char
  year : List Char
  month : Fin 100
  day : Fin 100
  hour : Fin 100
  minute : Fin 100
  second : Fin 100
  fraction : List Char
  isSign : sign ∈ [[], ['+'], ['-']]
  year_ne_nil : year ≠ []
  isDigit_year : ∀ c ∈ year, isDigit c = true
  isDigit_fraction : ∀ c ∈ fraction, isDigit c = true

namespace FullForm

variable (w : FullForm)

def fractionText : List Char :=
  if w.fraction = [] then [] else '.' :: w.fraction

def clock : List Char :=
  'T' :: (padded 2 w.hour ++ ':' :: (padded 2 w.minute ++ ':' :: (padded 2 w.second ++
    (w.fractionText ++ ['Z']))))

def tail : List Char :=
  '-' :: (padded 2 w.month ++ '-' :: (padded 2 w.day ++ w.clock))

def chars : List Char :=
  w.sign ++ (w.year ++ w.tail)

def text : String :=
  String.ofList w.chars

def yearNumber : Int :=
  if w.sign = ['-'] then -(natOf w.year : Int) else natOf w.year

def date : Date :=
  ⟨w.yearNumber, w.month.val, w.day.val⟩

/-- What the fields add up to, also where they are past their range. -/
def total : Instant :=
  Instant.total w.yearNumber w.month.val w.day.val w.hour.val w.minute.val w.second.val
    (nanosOf w.fraction)

def instant : Instant :=
  Instant.ofFields w.yearNumber w.month.val w.day.val w.hour.val w.minute.val w.second.val
    (nanosOf w.fraction)

/-- A day of the calendar, and a time that a clock shows. -/
def InRange : Prop :=
  w.date.Valid ∧ w.hour.val < 24 ∧ w.minute.val < 60 ∧ w.second.val < 60

/-- The instant has the fields that are written. -/
structure Shows (t : Instant) : Prop where
  date : t.date = w.date
  hour : t.hourOf = w.hour.val
  minute : t.minuteOf = w.minute.val
  second : t.secondOf = w.second.val

def FourDigits : Prop :=
  w.sign = [] ∧ w.year.length = 4

instance : Decidable w.InRange :=
  inferInstanceAs (Decidable (_ ∧ _))

instance : Decidable w.FourDigits :=
  inferInstanceAs (Decidable (_ ∧ _))

def Accepted : Prop :=
  (w.FourDigits ∧ w.InRange) ∨ (Word.Holds w.yearNumber ∧ w.fraction.length ≤ 9)

instance : Decidable w.Accepted :=
  inferInstanceAs (Decidable (_ ∨ _))

theorem clock_bounds (h : w.InRange) :
    (0 ≤ (w.hour.val : Int) ∧ (w.hour.val : Int) < 24) ∧
      (0 ≤ (w.minute.val : Int) ∧ (w.minute.val : Int) < 60) ∧
      (0 ≤ (w.second.val : Int) ∧ (w.second.val : Int) < 60) := by
  obtain ⟨-, hhour, hminute, hsecond⟩ := h
  omega

theorem instant_eq_total (h : w.InRange) (hcalendar : w.total.Representable) :
    w.instant = w.total := by
  obtain ⟨hhour, hminute, hsecond⟩ := w.clock_bounds h
  exact Instant.ofFields_of_representable (d := w.date) hhour hminute hsecond
    (nanosOf_bounds w.isDigit_fraction) h.1 hcalendar

theorem shows_total (h : w.InRange) : w.Shows w.total := by
  obtain ⟨hhour, hminute, hsecond⟩ := w.clock_bounds h
  have hnanos := nanosOf_bounds w.isDigit_fraction
  obtain ⟨hshown, hshown', hshown''⟩ :=
    Instant.clock_total hhour hminute hsecond hnanos w.yearNumber w.month.val w.day.val
  have hday := Instant.date_total (d := w.date) hhour hminute hsecond hnanos h.1
  exact ⟨hday, Int.ofNat.inj hshown, Int.ofNat.inj hshown', Int.ofNat.inj hshown''⟩

variable {w} in
theorem Shows.inRange {t : Instant} (h : w.Shows t) : w.InRange := by
  obtain ⟨hhour, hminute, hsecond, -⟩ := t.clock_lt
  refine ⟨?_, ?_, ?_, ?_⟩
  · rw [← h.date]
    exact t.date_valid
  · rwa [← h.hour]
  · rwa [← h.minute]
  · rwa [← h.second]

variable {w} in
theorem Shows.unixSeconds {t : Instant} (h : w.Shows t) : w.total.unixSeconds = t.unixSeconds := by
  have hnanos := nanosOf_bounds w.isDigit_fraction
  have htotal := t.total_clock (nanosOf w.fraction)
  rw [h.date, h.hour, h.minute, h.second] at htotal
  have hself : w.total = ⟨t.unixSeconds * nanosPerSecond + nanosOf w.fraction⟩ := htotal
  rw [hself]
  generalize t.unixSeconds = seconds
  simp only [Instant.unixSeconds, nanosPerSecond]
  omega

theorem shows_instant_iff : w.Shows w.instant ↔ w.InRange ∧ w.total.Representable := by
  constructor
  · intro h
    exact ⟨h.inRange,
      Instant.representable_of_unixSeconds (Instant.representable_wrap _) h.unixSeconds⟩
  · rintro ⟨hrange, hcalendar⟩
    rw [w.instant_eq_total hrange hcalendar]
    exact w.shows_total hrange

theorem sign_cases : w.sign = [] ∨ w.sign = ['+'] ∨ w.sign = ['-'] := by
  simpa using w.isSign

theorem readFour_chars {n : Int} {rest : List Char} (h : readFour w.chars = some (n, rest)) :
    (w.FourDigits ∧ rest = w.tail) ∨ ∃ c more, rest = c :: more ∧ isDigit c = true := by
  obtain ⟨digits, hlength, hdigits, -, heq⟩ := readFour_eq_some.1 h
  obtain ⟨d, digits, rfl⟩ := List.exists_cons_of_length_pos (show 0 < digits.length by omega)
  have hsign : w.sign = [] := by
    have hd := hdigits d (.head _)
    rcases w.sign_cases with hsign | hsign | hsign
    · exact hsign
    all_goals
      rw [chars, hsign] at heq
      rw [← (List.cons.inj heq).1] at hd
      cases hd
  rw [chars, hsign, List.nil_append] at heq
  rcases List.append_eq_append_iff.1 heq with ⟨more, hyear, htail⟩ | ⟨more, hyear, hrest⟩
  · cases more with
    | nil =>
        rw [List.append_nil] at hyear
        exact .inl ⟨⟨hsign, hyear ▸ hlength⟩, htail.symm⟩
    | cons c more =>
        -- A year of less than four digits is followed by its mark too soon.
        obtain rfl : '-' = c := (List.cons.inj htail).1
        have hmark := hdigits '-' (by rw [hyear]; simp)
        cases hmark
  · cases more with
    | nil =>
        rw [List.append_nil] at hyear
        exact .inl ⟨⟨hsign, hyear ▸ hlength⟩, hrest⟩
    | cons c more =>
        exact .inr ⟨c, more ++ w.tail, hrest, w.isDigit_year c (by rw [hyear]; simp)⟩

theorem readMonth_digit {c : Char} (hc : isDigit c = true) (rest : List Char) :
    readMonth (c :: rest) = none := by
  have hne : c ≠ '-' := by
    rintro rfl
    cases hc
  simp [readMonth, readMark, hne]

theorem readDate_chars : readDate w.chars =
    if w.FourDigits ∧ w.date.Valid then some (w.date, w.clock) else none := by
  by_cases hfour : w.FourDigits
  · have hdate : w.date = ⟨natOf w.year, w.month.val, w.day.val⟩ := by
      simp [date, yearNumber, hfour.1]
    have hread := readDate_digits hfour.2 w.isDigit_year w.month.isLt w.day.isLt w.clock
    simp only [hfour, true_and, chars, hfour.1, List.nil_append, tail, hread, hdate]
  · rw [if_neg fun h => hfour h.1]
    cases hread : readFour w.chars with
    | none => simp [readDate, hread]
    | some read =>
        obtain ⟨c, more, hrest, hc⟩ := (w.readFour_chars hread).resolve_left fun h => hfour h.1
        simp [readDate, hread, hrest, readMonth_digit hc]

theorem readFraction_text :
    readFraction (w.fractionText ++ ['Z']) = (nanosOf w.fraction, ['Z']) := by
  unfold fractionText
  split
  · rename_i hnone
    rw [hnone]
    rfl
  · rename_i hsome
    exact readFraction_digits hsome w.isDigit_fraction (by decide) []

theorem readZoned_chars :
    readZoned w.chars = if w.FourDigits ∧ w.InRange then some w.instant else none := by
  have hzone : readZone ['Z'] = some (0, []) := rfl
  simp only [readZoned, readOffset, readDate_chars, clock, readHour_padded w.hour.isLt,
    readSixty_padded w.minute.isLt, readSixty_padded w.second.isLt, readFraction_text, hzone,
    bind_ranged, Option.bind_eq_bind, Option.bind_some, whole, List.isEmpty_nil, if_true,
    Option.pure_def, Int.sub_zero]
  rw [← ite_and, ← ite_and, ← ite_and, apply_ite (Option.map _)]
  exact if_congr (by simp only [InRange, and_assoc]) rfl rfl

theorem readLocal_chars : readLocal w.chars = none := by
  simp [readLocal, readDate_chars, clock, readHour_padded w.hour.isLt,
    readSixty_padded w.minute.isLt, readSixty_padded w.second.isLt, readFraction_text,
    bind_ranged, whole]

theorem readMinutes_chars : readMinutes w.chars = none := by
  simp [readMinutes, readDate_chars, clock, readHour_padded w.hour.isLt,
    readSixty_padded w.minute.isLt, bind_ranged, whole]

theorem readDay_chars : readDay w.chars = none := by
  simp [readDay, readDate_chars, clock, bind_ranged, whole]

theorem readYearMonth_chars : readYearMonth w.chars = none := by
  cases hread : readFour w.chars with
  | none => simp [readYearMonth, hread]
  | some read =>
      obtain ⟨n, rest⟩ := read
      rcases w.readFour_chars hread with ⟨-, rfl⟩ | ⟨c, more, rfl, hc⟩
      · simp [readYearMonth, hread, tail, readMonth_padded w.month.isLt, bind_ranged, whole]
      · simp [readYearMonth, hread, readMonth_digit hc]

theorem readYear_chars : readYear w.chars = none := by
  cases hread : readFour w.chars with
  | none => simp [readYear, hread]
  | some read =>
      obtain ⟨n, rest⟩ := read
      rcases w.readFour_chars hread with ⟨-, rfl⟩ | ⟨c, more, rfl, -⟩
      · simp [readYear, hread, tail, whole]
      · simp [readYear, hread, whole]

theorem takeSign_chars : takeSign w.chars = (decide (w.sign = ['-']), w.year ++ w.tail) := by
  rcases w.sign_cases with hsign | hsign | hsign
  · obtain ⟨c, digits, hyear⟩ := List.exists_cons_of_ne_nil w.year_ne_nil
    have hc := w.isDigit_year c (by rw [hyear]; exact .head _)
    rw [chars, hsign, hyear]
    unfold takeSign
    split
    · rename_i heq
      rw [(List.cons.inj heq).1] at hc
      cases hc
    · rename_i heq
      rw [(List.cons.inj heq).1] at hc
      cases hc
    · rfl
  · rw [chars, hsign]
    rfl
  · rw [chars, hsign]
    rfl

theorem readLongYear_chars : readLongYear w.chars =
    if Word.Holds w.yearNumber then some (w.yearNumber, w.tail) else none := by
  have hsplit : (w.year ++ w.tail).takeWhile isDigit = w.year ∧
      (w.year ++ w.tail).dropWhile isDigit = w.tail :=
    takeWhile_isDigit w.isDigit_year (by simp [tail]; decide)
  have hvalue : (if decide (w.sign = ['-']) = true then -(natOf w.year : Int) else natOf w.year) =
      w.yearNumber := by
    simp only [yearNumber, decide_eq_true_eq]
  have hsome : w.year.isEmpty = false := by
    simpa using w.year_ne_nil
  simp only [readLongYear, takeSign_chars, hsplit, hvalue, hsome, Bool.false_eq_true, if_false]

theorem readShortFraction_text : readShortFraction (w.fractionText ++ ['Z']) =
    if w.fraction.length ≤ 9 then some (nanosOf w.fraction, ['Z']) else none := by
  unfold fractionText
  split
  · rename_i hnone
    rw [hnone]
    rfl
  · rename_i hsome
    exact readShortFraction_digits hsome w.isDigit_fraction (by decide) []

theorem readExtended_chars : readExtended w.chars =
    if Word.Holds w.yearNumber ∧ w.fraction.length ≤ 9 then some w.instant else none := by
  have step {α β : Type} {o : Option α} {f : α → Option β} {a : α} (h : o = some a) :
      (o >>= f) = f a := by
    rw [h]
    rfl
  by_cases hyear : Word.Holds w.yearNumber
  · have hread : readLongYear w.chars = some (w.yearNumber, w.tail) := by
      rw [readLongYear_chars, if_pos hyear]
    rw [if_congr (and_iff_right hyear) rfl rfl]
    refine (step hread).trans ?_
    refine (step (readMark_self _ _)).trans ((step (readTwo_padded w.month.isLt _)).trans ?_)
    refine (step (readMark_self _ _)).trans ((step (readTwo_padded w.day.isLt _)).trans ?_)
    refine (step (readMark_self _ _)).trans ((step (readTwo_padded w.hour.isLt _)).trans ?_)
    refine (step (readMark_self _ _)).trans ((step (readTwo_padded w.minute.isLt _)).trans ?_)
    refine (step (readMark_self _ _)).trans ((step (readTwo_padded w.second.isLt _)).trans ?_)
    dsimp only
    rw [readShortFraction_text]
    split <;> rfl
  · rw [if_neg fun h => hyear h.1, readExtended, readLongYear_chars, if_neg hyear]
    rfl

theorem readChars_chars :
    readChars w.chars = if w.Accepted then some w.instant else none := by
  simp only [readChars, List.findSome?_cons, readZoned_chars, readLocal_chars, readMinutes_chars,
    readDay_chars, readYearMonth_chars, readYear_chars, readExtended_chars, List.findSome?_nil]
  by_cases hstrict : w.FourDigits ∧ w.InRange
  · have haccepted : w.Accepted := .inl hstrict
    rw [if_pos hstrict, if_pos haccepted]
  · by_cases hlong : Word.Holds w.yearNumber ∧ w.fraction.length ≤ 9
    · have haccepted : w.Accepted := .inr hlong
      rw [if_neg hstrict, if_pos hlong, if_pos haccepted]
    · have haccepted : ¬ w.Accepted := fun h => h.elim hstrict hlong
      rw [if_neg hstrict, if_neg hlong, if_neg haccepted]

theorem mem_chars {c : Char} (h : c ∈ w.chars) :
    isDigit c = true ∨ c ∈ ['+', '-', 'T', ':', '.', 'Z'] := by
  have hpadded {n : Nat} (hc : c ∈ padded 2 n) : isDigit c = true := isDigit_of_mem_padded hc
  have hsign (hc : c ∈ w.sign) : c = '+' ∨ c = '-' := by
    rcases w.sign_cases with hsign | hsign | hsign <;> simp_all
  have hfraction (hc : c ∈ w.fractionText) : c = '.' ∨ isDigit c = true := by
    unfold fractionText at hc
    split at hc
    · cases hc
    · exact (List.mem_cons.1 hc).imp id (w.isDigit_fraction c)
  have hyear := w.isDigit_year c
  simp only [chars, tail, clock, List.mem_append, List.mem_cons, List.not_mem_nil, or_false] at h ⊢
  grind

theorem toNat_of_mem_chars {c : Char} (h : c ∈ w.chars) :
    43 ≤ c.toNat ∧ c.toNat < 0x5b ∧ c ≠ '/' := by
  rcases w.mem_chars h with h | h
  · have hrange : 48 ≤ c.toNat ∧ c.toNat ≤ 57 := by
      simpa [isDigit, Decimal.isDigit, Char.le_def, UInt32.le_iff_toNat_le] using h
    refine ⟨by omega, by omega, ?_⟩
    rintro rfl
    exact absurd hrange (by decide)
  · simp only [List.mem_cons, List.not_mem_nil, or_false] at h
    rcases h with rfl | rfl | rfl | rfl | rfl | rfl <;> decide

theorem trim_text : Text.trim w.text = w.text := by
  have hblank : ∀ c ∈ w.chars, Text.isBlank c = false := by
    intro c hc
    obtain ⟨hlow, hhigh, -⟩ := w.toNat_of_mem_chars hc
    simp only [Text.isBlank, Bool.or_eq_false_iff, Bool.and_eq_false_iff, decide_eq_false_iff_not,
      beq_eq_false_iff_ne]
    omega
  have hdrop : ∀ cs : List Char, (∀ c ∈ cs, Text.isBlank c = false) →
      cs.dropWhile Text.isBlank = cs := by
    intro cs hcs
    cases cs with
    | nil => rfl
    | cons c cs => simp [hcs c (by simp)]
  rw [Text.trim, text, String.toList_ofList, Text.trimChars, hdrop _ hblank,
    hdrop _ (by simpa using hblank), List.reverse_reverse]

theorem parse_text : Instant.parse w.text =
    if w.Accepted then .ok w.instant else .error (.unreadableTimestamp w.text) := by
  have hread : readChars (Text.trim w.text).toList = if w.Accepted then some w.instant else none := by
    rw [trim_text, text, String.toList_ofList, readChars_chars]
  unfold Instant.parse
  rw [hread, trim_text]
  split <;> split <;> simp_all

/-- A timestamp in full is read if its year has four digits and its fields are in range, and also, with
fields of any size, if the year fits into a word and the fraction has no more than nine digits. What it
is read as is a time of the calendar. It has the written fields exactly if they are in range and the
calendar goes as far: then it is what the fields add up to. -/
theorem parse_fullForm (w : FullForm) :
    Instant.parse w.text =
      (if w.Accepted then .ok w.instant else .error (.unreadableTimestamp w.text)) ∧
    w.instant.Representable ∧
    (w.Shows w.instant ↔ w.InRange ∧ w.total.Representable) ∧
    (w.InRange → w.total.Representable → w.instant = w.total) :=
  ⟨w.parse_text, Instant.representable_wrap _, w.shows_instant_iff, w.instant_eq_total⟩

def february30 : FullForm where
  sign := []
  year := ['2', '0', '2', '3']
  month := 2
  day := 30
  hour := 0
  minute := 0
  second := 0
  fraction := []
  isSign := by simp
  year_ne_nil := by simp
  isDigit_year := List.all_eq_true.1 rfl
  isDigit_fraction := by simp

def farYear : FullForm where
  sign := []
  year := ['1', '0', '0', '0', '0', '0', '0', '0', '0', '0', '0', '0', '0']
  month := 1
  day := 1
  hour := 0
  minute := 0
  second := 0
  fraction := []
  isSign := by simp
  year_ne_nil := by simp
  isDigit_year := List.all_eq_true.1 rfl
  isDigit_fraction := by simp

theorem parse_shows_other_fields :
    (february30.text = "2023-02-30T00:00:00Z" ∧
      Instant.parse february30.text = .ok (.ofFields 2023 3 2 0 0 0 0) ∧
      ¬ february30.Shows (.ofFields 2023 3 2 0 0 0 0)) ∧
    farYear.text = "1000000000000-01-01T00:00:00Z" ∧ farYear.InRange ∧
      Instant.parse farYear.text = .ok (.ofFields (-169108098508) 4 15 9 59 28 0) ∧
      ¬ farYear.Shows (.ofFields (-169108098508) 4 15 9 59 28 0) := by
  refine ⟨⟨by decide, ?_, ?_⟩, by decide, by decide, ?_, ?_⟩
  · rw [parse_text]
    decide
  · intro h
    exact absurd h.date (by decide)
  · rw [parse_text]
    decide
  · intro h
    exact absurd h.date (by decide)

end FullForm

end Timestamp

end TenantQuery
