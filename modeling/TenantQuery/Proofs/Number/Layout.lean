import TenantQuery.Json.Canonical
import TenantQuery.Proofs.Json.Literal
import TenantQuery.Proofs.Number.Rounding

namespace TenantQuery

structure Numeral where
  negative : Bool
  whole : List Char
  fraction : List Char
  -- Sign and digits of a power of ten.
  power : Option (Char × List Char)
  whole_digits : ∀ c ∈ whole, Decimal.isDigit c = true
  whole_lead : whole = ['0'] ∨ ∃ c digits, whole = c :: digits ∧ c ≠ '0'
  fraction_digits : ∀ c ∈ fraction, Decimal.isDigit c = true
  power_digits : ∀ p ∈ power, (p.1 = '+' ∨ p.1 = '-') ∧ p.2 ≠ [] ∧
    ∀ c ∈ p.2, Decimal.isDigit c = true

namespace Numeral

open Json.Literal

def fractionText (n : Numeral) : List Char :=
  match n.fraction with
  | [] => []
  | c :: digits => '.' :: c :: digits

def powerText (n : Numeral) : List Char :=
  match n.power with
  | none => []
  | some (sign, digits) => 'e' :: sign :: digits

def signText (negative : Bool) : List Char :=
  if negative then ['-'] else []

def text (n : Numeral) : List Char :=
  signText n.negative ++ (n.whole ++ (n.fractionText ++ n.powerText))

def exponent (n : Numeral) : Int :=
  match n.power with
  | none => 0
  | some (sign, digits) => if sign = '-' then -(Decimal.natOf digits : Int) else Decimal.natOf digits

def decimal (n : Numeral) : Decimal :=
  ⟨n.negative, Decimal.natOf (n.whole ++ n.fraction), n.exponent - n.fraction.length⟩

variable (n : Numeral)

theorem sign_signText : Sign (signText n.negative) := by
  unfold signText
  split
  · exact .inr rfl
  · exact .inl rfl

theorem whole_whole : Whole n.whole := by
  rcases n.whole_lead with h | ⟨c, digits, h, hc⟩
  · exact .inl h
  · refine .inr ⟨⟨?_, n.whole_digits⟩, ?_⟩ <;> simp [h, hc]

theorem fraction_fractionText : Fraction n.fractionText := by
  unfold fractionText
  split
  · exact .inl rfl
  · rename_i c digits hfraction
    exact .inr ⟨c :: digits, ⟨List.cons_ne_nil _ _, hfraction ▸ n.fraction_digits⟩, rfl⟩

theorem power_powerText : Power n.powerText := by
  unfold powerText
  split
  · exact .inl rfl
  · rename_i sign digits hpower
    obtain ⟨hsign, hne, hdigits⟩ := n.power_digits _ hpower
    refine .inr ⟨'e', [sign], digits, .inl rfl, .inr ?_, ⟨hne, hdigits⟩, rfl⟩
    simpa using hsign

theorem takeSign_text :
    Decimal.takeSign n.text = (n.negative, n.whole ++ (n.fractionText ++ n.powerText)) := by
  rw [text, takeSign_sign n.sign_signText n.whole_whole]
  cases n.negative <;> rfl

theorem isLiteral : Json.IsLiteral (String.ofList n.text) :=
  Json.Literal.isLiteral
    (.mk n.sign_signText n.whole_whole n.fraction_fractionText n.power_powerText)

theorem decimal_readExponent : Decimal.readExponent n.powerText = some n.exponent := by
  cases hpower : n.power with
  | none => simp [powerText, exponent, hpower, Decimal.readExponent]
  | some p =>
      obtain ⟨sign, digits⟩ := p
      obtain ⟨hsign, hne, hdigits⟩ := n.power_digits _ hpower
      cases digits with
      | nil => exact absurd rfl hne
      | cons d digits =>
          rcases hsign with rfl | rfl <;>
            simp_all [powerText, exponent, Decimal.readExponent, Decimal.takeSign]

theorem read_text : Decimal.read? n.text = some n.decimal := by
  have hsign : decide (signText n.negative = ['-']) = n.negative := by
    cases n.negative <;> rfl
  have hfraction : n.fractionText.tail = n.fraction := by
    unfold fractionText
    split <;> simp_all
  rw [text, read?_eq n.sign_signText n.whole_whole n.fraction_fractionText n.power_powerText,
    n.decimal_readExponent, hsign, hfraction]
  rfl

end Numeral

namespace Layout

open Decimal (isDigit isDigit_of_mem_toDigits natOf_append natOf_toDigits natOf_replicate_zero
  natOf_replicate_zero_append)

theorem isDigit_zeros {k : Nat} {c : Char} (h : c ∈ zeros k) : isDigit c = true := by
  rw [zeros, List.mem_replicate] at h
  rw [h.2]
  rfl

theorem isDigit_zeros_append {k m : Nat} {c : Char} (h : c ∈ zeros k ++ Nat.toDigits 10 m) :
    isDigit c = true := by
  rcases List.mem_append.1 h with h | h
  · exact isDigit_zeros h
  · exact isDigit_of_mem_toDigits h

def wholeNumeral (negative : Bool) (m : Nat) : Numeral where
  negative := negative
  whole := Nat.toDigits 10 m
  fraction := []
  power := none
  whole_digits _ h := isDigit_of_mem_toDigits h
  whole_lead := by
    by_cases hm : m = 0
    · left
      rw [hm, Nat.toDigits_zero]
    · exact .inr (Decimal.toDigits_eq_cons hm)
  fraction_digits := by simp
  power_digits := by simp

theorem text_wholeNumeral (negative : Bool) (m : Nat) :
    (wholeNumeral negative m).text = Numeral.signText negative ++ Nat.toDigits 10 m := by
  simp [Numeral.text, Numeral.fractionText, Numeral.powerText, wholeNumeral]

/-- A decimal below one, all of its digits after the point. -/
def belowOne (negative : Bool) (m k : Nat) : Numeral where
  negative := negative
  whole := ['0']
  fraction := zeros k ++ Nat.toDigits 10 m
  power := none
  whole_digits := by simp [isDigit]
  whole_lead := .inl rfl
  fraction_digits _ h := isDigit_zeros_append h
  power_digits := by simp

def rounded (negative : Bool) (m k : Nat) (hm : m ≠ 0) : Numeral where
  negative := negative
  whole := Nat.toDigits 10 m ++ zeros k
  fraction := []
  power := none
  whole_digits c h := by
    rcases List.mem_append.1 h with h | h
    · exact isDigit_of_mem_toDigits h
    · exact isDigit_zeros h
  whole_lead := by
    obtain ⟨c, digits, hdigits, hc⟩ := Decimal.toDigits_eq_cons hm
    exact .inr ⟨c, digits ++ zeros k, by rw [hdigits, List.cons_append], hc⟩
  fraction_digits := by simp
  power_digits := by simp

/-- The digits of a number parted after the first `k`, with a power of ten if there is one. -/
def parted (negative : Bool) (m k : Nat) (hm : m ≠ 0) (hk : k ≠ 0)
    (power : Option (Char × List Char))
    (hpower : ∀ p ∈ power, (p.1 = '+' ∨ p.1 = '-') ∧ p.2 ≠ [] ∧ ∀ c ∈ p.2, isDigit c = true) :
    Numeral where
  negative := negative
  whole := (Nat.toDigits 10 m).take k
  fraction := (Nat.toDigits 10 m).drop k
  power := power
  whole_digits _ h := isDigit_of_mem_toDigits (List.mem_of_mem_take h)
  whole_lead := by
    obtain ⟨c, digits, hdigits, hc⟩ := Decimal.toDigits_eq_cons hm
    refine .inr ⟨c, digits.take (k - 1), ?_, hc⟩
    rw [hdigits, List.take_cons (Nat.pos_of_ne_zero hk)]
  fraction_digits _ h := isDigit_of_mem_toDigits (List.mem_of_mem_drop h)
  power_digits := hpower

def exponentParts (width : Nat) (e : Int) : Char × List Char :=
  (if e < 0 then '-' else '+',
    zeros (width - (Nat.toDigits 10 e.natAbs).length) ++ Nat.toDigits 10 e.natAbs)

theorem exponentParts_digits (width : Nat) (e : Int) :
    ∀ p ∈ some (exponentParts width e), (p.1 = '+' ∨ p.1 = '-') ∧ p.2 ≠ [] ∧
      ∀ c ∈ p.2, isDigit c = true := by
  rintro p ⟨⟩
  refine ⟨?_, ?_, fun c hc => isDigit_zeros_append hc⟩
  · unfold exponentParts
    by_cases he : e < 0 <;> simp [he]
  · simp [exponentParts]

theorem exponent_exponentParts {n : Numeral} {width : Nat} {e : Int}
    (h : n.power = some (exponentParts width e)) : n.exponent = e := by
  have hvalue : Decimal.natOf (exponentParts width e).2 = e.natAbs := by
    rw [exponentParts, zeros, natOf_replicate_zero_append, natOf_toDigits]
  rw [Numeral.exponent, h]
  simp only [hvalue]
  by_cases he : e < 0
  · rw [if_pos (by simp [exponentParts, he])]
    omega
  · rw [if_neg (by simp [exponentParts, he])]
    omega

/-- The point stands among the digits or before or after them, at the same place of the value. -/
theorem exists_positional (negative : Bool) {m : Nat} (hm : m ≠ 0) (e : Int) : ∃ n : Numeral,
    n.text = Numeral.signText negative ++
      positional (Nat.toDigits 10 m) (e + (Nat.toDigits 10 m).length) ∧
    n.decimal.negative = negative ∧ n.decimal.value = (Decimal.mk negative m e).value := by
  have hdigits : Decimal.natOf (Nat.toDigits 10 m) = m := natOf_toDigits m
  generalize hpoint : e + (Nat.toDigits 10 m).length = point
  unfold positional
  split
  · refine ⟨belowOne negative m (-point).toNat, ?_, rfl, ?_⟩
    · obtain ⟨c, digits, hcons⟩ : ∃ c digits,
          zeros (-point).toNat ++ Nat.toDigits 10 m = c :: digits :=
        List.exists_cons_of_ne_nil (by simp)
      simp [Numeral.text, Numeral.fractionText, Numeral.powerText, belowOne, hcons]
    · have hdecimal : (belowOne negative m (-point).toNat).decimal = ⟨negative, m, e⟩ := by
        simp only [Numeral.decimal, Numeral.exponent, belowOne, Decimal.mk.injEq, true_and]
        constructor
        · rw [natOf_append, zeros, natOf_replicate_zero_append, hdigits]
          simp [Decimal.natOf, Decimal.digitValue]
        · simp only [zeros, List.length_append, List.length_replicate]
          omega
      rw [hdecimal]
  · split
    · refine ⟨rounded negative m (point.toNat - (Nat.toDigits 10 m).length) hm, ?_, rfl, ?_⟩
      · simp [Numeral.text, Numeral.fractionText, Numeral.powerText, rounded]
      · obtain ⟨k, rfl⟩ : ∃ k : Nat, e = k := Int.eq_ofNat_of_zero_le (by omega)
        have hwidth : point.toNat - (Nat.toDigits 10 m).length = k := by omega
        rw [hwidth]
        simp only [Decimal.value, Numeral.decimal, Numeral.exponent, rounded, List.append_nil,
          natOf_append, hdigits]
        rw [zeros, natOf_replicate_zero]
        simp
    · refine ⟨parted negative m point.toNat hm (by omega) none (by simp), ?_, rfl, ?_⟩
      · obtain ⟨c, digits, hcons⟩ : ∃ c digits,
            (Nat.toDigits 10 m).drop point.toNat = c :: digits :=
          List.exists_cons_of_ne_nil (by
            rw [ne_eq, List.drop_eq_nil_iff]
            omega)
        simp [Numeral.text, Numeral.fractionText, Numeral.powerText, parted, hcons]
      · have hdecimal : (parted negative m point.toNat hm (by omega) none (by simp)).decimal =
            ⟨negative, m, e⟩ := by
          simp only [Numeral.decimal, Numeral.exponent, parted, Decimal.mk.injEq, true_and,
            List.take_append_drop, hdigits, List.length_drop]
          omega
        rw [hdecimal]

theorem exists_exponential (negative : Bool) {m : Nat} (hm : m ≠ 0) (width : Nat) (e : Int) :
    ∃ n : Numeral, n.text = Numeral.signText negative ++
      exponential (Nat.toDigits 10 m) width (e + (Nat.toDigits 10 m).length - 1) ∧
    n.decimal.negative = negative ∧ n.decimal.value = (Decimal.mk negative m e).value := by
  generalize hlead : e + (Nat.toDigits 10 m).length - 1 = lead
  let n := parted negative m 1 hm (by decide) (some (exponentParts width lead))
    (exponentParts_digits width lead)
  refine ⟨n, ?_, rfl, ?_⟩
  · have htail : n.fractionText = if ((Nat.toDigits 10 m).drop 1).isEmpty then []
        else '.' :: (Nat.toDigits 10 m).drop 1 := by
      simp only [Numeral.fractionText, n, parted]
      cases (Nat.toDigits 10 m).drop 1 <;> rfl
    rw [Numeral.text, htail]
    simp [Numeral.powerText, n, parted, exponential, exponentParts, exponentText]
  · have hdecimal : n.decimal = ⟨negative, m, e⟩ := by
      have hexponent : n.exponent = lead := exponent_exponentParts rfl
      have hpos : 0 < (Nat.toDigits 10 m).length := Nat.length_toDigits_pos
      rw [Numeral.decimal, hexponent]
      simp only [n, parted, Decimal.mk.injEq, true_and, List.take_append_drop,
        natOf_toDigits, List.length_drop]
      omega
    rw [hdecimal]

/-- Whatever the layout, a written decimal is a numeral of the same value. -/
theorem exists_numeral (layout : Layout) (d : Decimal) : ∃ n : Numeral,
    n.text = layout.decimal d ∧ n.decimal.negative = d.negative ∧ n.decimal.value = d.value := by
  have hsign (body : List Char) :
      (if d.negative then '-' :: body else body) = Numeral.signText d.negative ++ body := by
    cases d.negative <;> rfl
  by_cases hzero : d.coefficient = 0
  · refine ⟨wholeNumeral d.negative 0, ?_, rfl, ?_⟩
    · rw [text_wholeNumeral, decimal, hsign, if_pos hzero, Nat.toDigits_zero]
    · rw [Decimal.value_eq_zero.2 hzero, Decimal.value_eq_zero]
      rfl
  · by_cases hplain : layout.least ≤ d.exponent + (Nat.toDigits 10 d.coefficient).length - 1 ∧
        d.exponent + (Nat.toDigits 10 d.coefficient).length - 1 < layout.bound
    · obtain ⟨n, htext, hnegative, hvalue⟩ := exists_positional d.negative hzero d.exponent
      refine ⟨n, ?_, hnegative, hvalue⟩
      rw [decimal, hsign, if_neg hzero, if_pos hplain, htext]
      congr 2
      omega
    · obtain ⟨n, htext, hnegative, hvalue⟩ :=
        exists_exponential d.negative hzero layout.width d.exponent
      refine ⟨n, ?_, hnegative, hvalue⟩
      rw [decimal, hsign, if_neg hzero, if_neg hplain, htext]

theorem isLiteral_decimal (layout : Layout) (d : Decimal) :
    Json.IsLiteral (String.ofList (layout.decimal d)) := by
  obtain ⟨n, htext, -, -⟩ := layout.exists_numeral d
  rw [← htext]
  exact n.isLiteral

/-- A number that is written reads as the nearest to the decimal it was written from. -/
theorem toDouble?_decimal (layout : Layout) (d : Decimal) :
    Json.toDouble? (String.ofList (layout.decimal d)) = d.toDouble? := by
  obtain ⟨n, htext, hnegative, hvalue⟩ := layout.exists_numeral d
  rw [Json.toDouble?, String.toList_ofList, ← htext, n.read_text, Option.bind_some]
  exact Decimal.toDouble?_congr hnegative hvalue

theorem toDouble?_write (layout : Layout) {x : Double} (hx : x.isFinite = true) :
    Json.toDouble? (String.ofList (layout.write x)) = some x := by
  rw [write, toDouble?_decimal, Double.shortest_toDouble? hx]

end Layout

end TenantQuery
