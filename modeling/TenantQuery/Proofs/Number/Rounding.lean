import Mathlib.Data.Int.Log
import Mathlib.Data.Rat.Floor
import Mathlib.Tactic.FieldSimp
import Mathlib.Tactic.Linarith
import Mathlib.Tactic.NormNum
import Mathlib.Tactic.Positivity
import Mathlib.Tactic.Ring
import TenantQuery.Number.Shortest

namespace TenantQuery

namespace Quotient

def value (n d : Nat) : ℚ :=
  (n : ℚ) / d

theorem cross_of_value_eq {n d n' d' : Nat} (hd : 0 < d) (hd' : 0 < d')
    (h : value n d = value n' d') : n * d' = n' * d := by
  have hd₀ : (d : ℚ) ≠ 0 := by positivity
  have hd₀' : (d' : ℚ) ≠ 0 := by positivity
  rw [value, value, div_eq_div_iff hd₀ hd₀'] at h
  exact_mod_cast h

theorem round_mul {k : Nat} (hk : 0 < k) (n d : Nat) : round (n * k) (d * k) = round n d := by
  have hdiv : n * k / (d * k) = n / d := Nat.mul_div_mul_right n d hk
  have hmod : n * k % (d * k) = n % d * k := Nat.mul_mod_mul_right k n d
  have hlow : 2 * (n % d * k) < d * k ↔ 2 * (n % d) < d := by
    rw [← Nat.mul_assoc]
    exact Nat.mul_lt_mul_right hk
  have hhigh : d * k < 2 * (n % d * k) ↔ d < 2 * (n % d) := by
    rw [← Nat.mul_assoc]
    exact Nat.mul_lt_mul_right hk
  simp only [round, hdiv, hmod, hlow, hhigh]

theorem round_congr {n d n' d' : Nat} (hd : 0 < d) (hd' : 0 < d')
    (h : value n d = value n' d') : round n d = round n' d' := by
  rw [← round_mul hd' n d, ← round_mul hd n' d', cross_of_value_eq hd hd' h, Nat.mul_comm d d']

theorem scale_pos {base : Nat} (hbase : 0 < base) {n d : Nat} (hd : 0 < d) (power : Int) :
    0 < (scale base n d power).2 := by
  unfold scale
  split
  · exact Nat.mul_pos hd (Nat.pow_pos hbase)
  · exact hd

theorem value_scale {base : Nat} (hbase : 0 < base) (n d : Nat) (power : Int) :
    value (scale base n d power).1 (scale base n d power).2 =
      value n d / (base : ℚ) ^ power := by
  have hb : (base : ℚ) ≠ 0 := by positivity
  unfold scale
  split
  · rename_i hpower
    obtain ⟨k, rfl⟩ := Int.eq_ofNat_of_zero_le hpower
    simp only [value, Int.toNat_natCast, Nat.pow_eq, Nat.cast_mul, Nat.cast_pow, zpow_natCast]
    rw [div_div]
  · rename_i hpower
    obtain ⟨k, hk⟩ := Int.eq_ofNat_of_zero_le (show 0 ≤ -power by omega)
    obtain rfl : power = -(k : Int) := by omega
    simp only [value, neg_neg, Int.toNat_natCast, Nat.pow_eq, Nat.cast_mul, Nat.cast_pow,
      zpow_neg, zpow_natCast]
    rw [div_inv_eq_mul, div_mul_eq_mul_div]

theorem div_lt_iff_value_lt {n d : Nat} (m : Nat) (hd : 0 < d) : n / d < m ↔ value n d < m := by
  have hd₀ : (0 : ℚ) < d := by positivity
  rw [Nat.div_lt_iff_lt_mul hd, value, div_lt_iff₀ hd₀]
  exact_mod_cast Iff.rfl

theorem value_pos {n d : Nat} (hn : 0 < n) (hd : 0 < d) : 0 < value n d := by
  unfold value
  positivity

theorem log_value {n d : Nat} (hn : 0 < n) (hd : 0 < d) :
    Int.log 2 (value n d) = (Nat.log2 n : Int) - Nat.log2 d ∨
      Int.log 2 (value n d) = (Nat.log2 n : Int) - Nat.log2 d - 1 := by
  have hpos := value_pos hn hd
  have hd₀ : (0 : ℚ) < d := by positivity
  have hpow (k : Int) : (0 : ℚ) ≤ ((2 : ℕ) : ℚ) ^ k := zpow_nonneg (by norm_num) k
  have hlower : ((Nat.log2 n : Int) - Nat.log2 d - 1) ≤ Int.log 2 (value n d) := by
    rw [← Int.zpow_le_iff_le_log (by decide) hpos, value, le_div_iff₀ hd₀]
    have hn₁ : ((2 : ℕ) : ℚ) ^ (Nat.log2 n : Int) ≤ n := by
      exact_mod_cast Nat.log2_self_le hn.ne'
    have hd₁ : (d : ℚ) ≤ ((2 : ℕ) : ℚ) ^ ((Nat.log2 d : Int) + 1) := by
      exact_mod_cast (Nat.lt_log2_self (n := d)).le
    calc ((2 : ℕ) : ℚ) ^ ((Nat.log2 n : Int) - Nat.log2 d - 1) * d
        ≤ ((2 : ℕ) : ℚ) ^ ((Nat.log2 n : Int) - Nat.log2 d - 1) *
            ((2 : ℕ) : ℚ) ^ ((Nat.log2 d : Int) + 1) := mul_le_mul_of_nonneg_left hd₁ (hpow _)
      _ = ((2 : ℕ) : ℚ) ^ (Nat.log2 n : Int) := by
          rw [← zpow_add₀ (by norm_num)]
          congr 1
          omega
      _ ≤ n := hn₁
  have hupper : Int.log 2 (value n d) < (Nat.log2 n : Int) - Nat.log2 d + 1 := by
    rw [← Int.lt_zpow_iff_log_lt (by decide) hpos, value, div_lt_iff₀ hd₀]
    have hn₁ : (n : ℚ) < ((2 : ℕ) : ℚ) ^ ((Nat.log2 n : Int) + 1) := by
      exact_mod_cast Nat.lt_log2_self (n := n)
    have hd₁ : ((2 : ℕ) : ℚ) ^ (Nat.log2 d : Int) ≤ d := by
      exact_mod_cast Nat.log2_self_le hd.ne'
    calc (n : ℚ) < ((2 : ℕ) : ℚ) ^ ((Nat.log2 n : Int) + 1) := hn₁
      _ = ((2 : ℕ) : ℚ) ^ ((Nat.log2 n : Int) - Nat.log2 d + 1) *
            ((2 : ℕ) : ℚ) ^ (Nat.log2 d : Int) := by
          rw [← zpow_add₀ (by norm_num)]
          congr 1
          omega
      _ ≤ ((2 : ℕ) : ℚ) ^ ((Nat.log2 n : Int) - Nat.log2 d + 1) * d :=
          mul_le_mul_of_nonneg_left hd₁ (hpow _)
  omega

/-- The unit of a value leaves 53 binary digits before the point. -/
theorem unitExponent_eq {n d : Nat} (hn : 0 < n) (hd : 0 < d) :
    unitExponent n d = max (Int.log 2 (value n d) - 52) (-1074) := by
  have hpos := value_pos hn hd
  have htest : (scale 2 n d ((Nat.log2 n : Int) - Nat.log2 d - 52)).1 /
        (scale 2 n d ((Nat.log2 n : Int) - Nat.log2 d - 52)).2 < Double.exponentBit ↔
      Int.log 2 (value n d) < (Nat.log2 n : Int) - Nat.log2 d := by
    rw [div_lt_iff_value_lt _ (scale_pos (by decide) hd _), value_scale (by decide),
      div_lt_iff₀ (zpow_pos (by norm_num) _), ← Int.lt_zpow_iff_log_lt (by decide) hpos]
    have hbit : ((Double.exponentBit : ℕ) : ℚ) = ((2 : ℕ) : ℚ) ^ (52 : Int) := by
      norm_num [Double.exponentBit]
    rw [hbit, ← zpow_add₀ (by norm_num)]
    have hsum : (52 : Int) + ((Nat.log2 n : Int) - Nat.log2 d - 52) =
        (Nat.log2 n : Int) - Nat.log2 d := by omega
    rw [hsum]
  unfold unitExponent
  simp only [htest]
  rcases log_value hn hd with hlog | hlog
  · rw [if_neg (by omega), hlog]
  · rw [if_pos (by omega), hlog]
    congr 1
    omega

theorem nearest?_congr {n d n' d' : Nat} (hd : 0 < d) (hd' : 0 < d')
    (h : value n d = value n' d') : nearest? n d = nearest? n' d' := by
  have hcross := cross_of_value_eq hd hd' h
  by_cases hn : n = 0
  · have hn' : n' = 0 := by
      subst hn
      rw [Nat.zero_mul] at hcross
      rcases Nat.mul_eq_zero.1 hcross.symm with h0 | h0
      · exact h0
      · omega
    simp [nearest?, hn, hn']
  · have hn' : n' ≠ 0 := by
      rintro rfl
      rw [Nat.zero_mul] at hcross
      rcases Nat.mul_eq_zero.1 hcross with h0 | h0 <;> omega
    have hunit : unitExponent n d = unitExponent n' d' := by
      rw [unitExponent_eq (by omega) hd, unitExponent_eq (by omega) hd', h]
    have hround : round (scale 2 n d (unitExponent n' d')).1 (scale 2 n d (unitExponent n' d')).2 =
        round (scale 2 n' d' (unitExponent n' d')).1 (scale 2 n' d' (unitExponent n' d')).2 := by
      apply round_congr (scale_pos (by decide) hd _) (scale_pos (by decide) hd' _)
      rw [value_scale (by decide), value_scale (by decide), h]
    simp only [nearest?, hn, hn', if_false, hunit, hround]

end Quotient

namespace Double

variable {x : Double}

theorem ofSigned_magnitude (x : Double) : ofSigned x.negative x.magnitude = x := by
  have hlt : x.bits.toNat < 2 ^ 64 := x.bits.toNat_lt
  have hbits : (if x.negative = true then signBit + x.magnitude else x.magnitude) =
      x.bits.toNat := by
    by_cases hsign : signBit ≤ x.bits.toNat
    · have hnegative : x.negative = true := decide_eq_true hsign
      rw [if_pos hnegative]
      simp only [magnitude, signBit] at hsign ⊢
      omega
    · have hnegative : ¬ x.negative = true := mt of_decide_eq_true hsign
      rw [if_neg hnegative, magnitude, Nat.mod_eq_of_lt (Nat.lt_of_not_le hsign)]
  rw [ofSigned, hbits, UInt64.ofNat_toNat]

theorem mantissa_small (h : x.biasedExponent = 0) :
    x.mantissa = x.magnitude ∧ x.magnitude < exponentBit := by
  refine ⟨if_pos h, ?_⟩
  simp only [biasedExponent, exponentBit] at h ⊢
  omega

theorem mantissa_normal (h : x.biasedExponent ≠ 0) :
    x.mantissa = exponentBit + x.magnitude % exponentBit :=
  if_neg h

theorem mantissa_lt (x : Double) : x.mantissa < 2 * exponentBit := by
  by_cases h : x.biasedExponent = 0
  · have hsmall := mantissa_small h
    omega
  · have hmod := Nat.mod_lt x.magnitude (show 0 < exponentBit by decide)
    rw [mantissa_normal h]
    omega

theorem mantissa_pos (hx : x.isZero = false) : 0 < x.mantissa := by
  have hmagnitude : x.magnitude ≠ 0 := by simpa [isZero] using hx
  by_cases h : x.biasedExponent = 0
  · rw [(mantissa_small h).1]
    omega
  · rw [mantissa_normal h, exponentBit]
    omega

theorem den_pos (x : Double) : 0 < x.den :=
  Nat.pow_pos (by decide)

theorem num_pos (hx : x.isZero = false) : 0 < x.num :=
  Nat.mul_pos (mantissa_pos hx) (Nat.pow_pos (by decide))

/-- The value of a number without its sign. -/
def value (x : Double) : ℚ :=
  x.mantissa * (2 : ℚ) ^ x.exponent

theorem value_num_den (x : Double) : Quotient.value x.num x.den = x.value := by
  simp only [Quotient.value, num, den, value, Nat.pow_eq]
  rcases le_total 0 x.exponent with h | h
  · obtain ⟨k, hk⟩ := Int.eq_ofNat_of_zero_le h
    rw [hk]
    simp
  · obtain ⟨k, hk⟩ := Int.eq_ofNat_of_zero_le (show 0 ≤ -x.exponent by omega)
    obtain hk' : x.exponent = -(k : Int) := by omega
    rw [hk']
    simp [div_eq_mul_inv]

theorem unitExponent_num_den (hx : x.isZero = false) :
    Quotient.unitExponent x.num x.den = x.exponent := by
  have hpos : (0 : ℚ) < x.mantissa := by exact_mod_cast mantissa_pos hx
  have hvalue : 0 < x.value := mul_pos hpos (zpow_pos (by norm_num) _)
  have hlog (k : Int) : Int.log 2 x.value < k + x.exponent ↔ (x.mantissa : ℚ) < 2 ^ k := by
    rw [← Int.lt_zpow_iff_log_lt (by decide) hvalue, value, Nat.cast_ofNat,
      zpow_add₀ (by norm_num)]
    exact mul_lt_mul_iff_left₀ (zpow_pos (by norm_num) _)
  have hupper := (hlog 53).2 (by
    have := mantissa_lt x
    simp only [exponentBit] at this
    exact_mod_cast this)
  rw [Quotient.unitExponent_eq (num_pos hx) x.den_pos, value_num_den]
  by_cases hnormal : x.biasedExponent = 0
  · -- A small number has the least exponent and may have fewer digits.
    have hexponent : x.exponent = -1074 := by simp [exponent, hnormal]
    omega
  · have hlower : ¬ Int.log 2 x.value < 52 + x.exponent := by
      rw [hlog]
      have hm : exponentBit ≤ x.mantissa := by
        rw [mantissa_normal hnormal]
        omega
      simp only [exponentBit] at hm
      rw [not_lt]
      exact_mod_cast hm
    have hexponent : -1074 ≤ x.exponent := by
      simp only [exponent]
      omega
    omega

theorem nearest?_num_den (hfinite : x.isFinite = true) (hx : x.isZero = false) :
    Quotient.nearest? x.num x.den = some x.magnitude := by
  have hunit := unitExponent_num_den hx
  have hscaled : Quotient.round (Quotient.scale 2 x.num x.den x.exponent).1
      (Quotient.scale 2 x.num x.den x.exponent).2 = x.mantissa := by
    have hone : Quotient.round x.mantissa 1 = x.mantissa := by
      simp [Quotient.round, Nat.mod_one]
    rw [← hone]
    apply Quotient.round_congr (Quotient.scale_pos (by decide) x.den_pos _) (by decide)
    rw [Quotient.value_scale (by decide), value_num_den, value, Quotient.value, Nat.cast_one,
      div_one, Nat.cast_ofNat, mul_div_cancel_right₀ _ (zpow_ne_zero _ (by norm_num))]
  have hmagnitude : (x.exponent + 1074).toNat * exponentBit + x.mantissa = x.magnitude := by
    have hdiv := Nat.div_add_mod x.magnitude exponentBit
    rw [exponent]
    by_cases hnormal : x.biasedExponent = 0
    · have hshift : (((max 0 1 : Nat) : Int) - 1075 + 1074).toNat = 0 := rfl
      rw [(mantissa_small hnormal).1, hnormal, hshift, Nat.zero_mul, Nat.zero_add]
    · have hshift : (((max x.biasedExponent 1 : Nat) : Int) - 1075 + 1074).toNat =
          x.biasedExponent - 1 := by omega
      rw [mantissa_normal hnormal, hshift]
      change exponentBit * x.biasedExponent + _ = _ at hdiv
      rw [Nat.mul_comm (x.biasedExponent - 1), Nat.mul_sub, Nat.mul_one]
      have hle := Nat.le_mul_of_pos_right exponentBit (Nat.pos_of_ne_zero hnormal)
      omega
  have hbound : x.magnitude < 2047 * exponentBit :=
    (Nat.div_lt_iff_lt_mul (by decide)).1 (of_decide_eq_true hfinite)
  simp only [Quotient.nearest?, (num_pos hx).ne', if_false, hunit, hscaled, hmagnitude, hbound,
    if_true]

end Double

namespace Decimal

/-- The value of a decimal without its sign. -/
def value (d : Decimal) : ℚ :=
  d.coefficient * (10 : ℚ) ^ d.exponent

theorem value_eq_zero {d : Decimal} : d.value = 0 ↔ d.coefficient = 0 := by
  have hpow : (10 : ℚ) ^ d.exponent ≠ 0 := zpow_ne_zero _ (by norm_num)
  rw [value, mul_eq_zero_iff_right hpow, Nat.cast_eq_zero]

theorem value_pos {d : Decimal} (h : d.coefficient ≠ 0) : 0 < d.value :=
  mul_pos (by positivity) (zpow_pos (by norm_num) _)

/-- How many digits stand before the point is told by the value. -/
theorem length_add_exponent {d : Decimal} (h : d.coefficient ≠ 0) :
    ((Nat.toDigits 10 d.coefficient).length : Int) + d.exponent = Int.log 10 d.value + 1 := by
  have hpos := value_pos h
  have hlength (k : Nat) : (Nat.toDigits 10 d.coefficient).length ≤ k ↔ d.coefficient < 10 ^ k := by
    rcases Nat.eq_zero_or_pos k with rfl | hk
    · have := Nat.length_toDigits_pos (b := 10) (n := d.coefficient)
      omega
    · exact Nat.length_toDigits_le_iff (by decide) hk
  have hlog (k : Int) : Int.log 10 d.value < k + d.exponent ↔ (d.coefficient : ℚ) < 10 ^ k := by
    rw [← Int.lt_zpow_iff_log_lt (by decide) hpos, value, Nat.cast_ofNat,
      zpow_add₀ (by norm_num)]
    exact mul_lt_mul_iff_left₀ (zpow_pos (by norm_num) _)
  have hupper : Int.log 10 d.value < (Nat.toDigits 10 d.coefficient).length + d.exponent := by
    rw [hlog, zpow_natCast]
    exact_mod_cast (hlength _).1 le_rfl
  obtain ⟨k, hk⟩ : ∃ k, (Nat.toDigits 10 d.coefficient).length = k + 1 :=
    Nat.exists_eq_add_one.2 Nat.length_toDigits_pos
  have hlower : ¬ Int.log 10 d.value < k + d.exponent := by
    rw [hlog, zpow_natCast]
    intro hlt
    have := (hlength k).2 (by exact_mod_cast hlt)
    omega
  omega

theorem value_scale (d : Decimal) :
    Quotient.value (Quotient.scale 10 d.coefficient 1 (-d.exponent)).1
      (Quotient.scale 10 d.coefficient 1 (-d.exponent)).2 = d.value := by
  rw [Quotient.value_scale (by decide), Quotient.value, value, Nat.cast_one, div_one, zpow_neg,
    div_inv_eq_mul, Nat.cast_ofNat]

/-- The nearest binary number depends only on the value and the sign. -/
theorem toDouble?_congr {d d' : Decimal} (hsign : d.negative = d'.negative)
    (hvalue : d.value = d'.value) : d.toDouble? = d'.toDouble? := by
  by_cases hzero : d.coefficient = 0
  · have hzero' : d'.coefficient = 0 := by rw [← value_eq_zero, ← hvalue, value_eq_zero, hzero]
    simp [toDouble?, hzero, hzero', hsign]
  · have hzero' : d'.coefficient ≠ 0 := by
      rw [ne_eq, ← value_eq_zero, ← hvalue, value_eq_zero]
      exact hzero
    have hnearest := Quotient.nearest?_congr
      (Quotient.scale_pos (n := d.coefficient) (show 0 < 10 by decide) Nat.one_pos (-d.exponent))
      (Quotient.scale_pos (n := d'.coefficient) (show 0 < 10 by decide) Nat.one_pos (-d'.exponent))
      (by rw [value_scale, value_scale, hvalue])
    simp only [toDouble?, length_add_exponent hzero, length_add_exponent hzero', hvalue, hzero,
      hzero', hsign, hnearest]

theorem trim_negative (fuel : Nat) (d : Decimal) : (trim fuel d).negative = d.negative := by
  induction fuel generalizing d with
  | zero => rfl
  | succ fuel ih =>
      rw [trim]
      split
      · rw [ih]
      · rfl

theorem trim_value (fuel : Nat) (d : Decimal) : (trim fuel d).value = d.value := by
  induction fuel generalizing d with
  | zero => rfl
  | succ fuel ih =>
      rw [trim]
      split
      · rename_i h
        have hten : (d.coefficient : ℚ) = (d.coefficient / 10 : Nat) * 10 := by
          exact_mod_cast (Nat.div_mul_cancel (Nat.dvd_of_mod_eq_zero h.2)).symm
        rw [ih, value, value, hten, zpow_add_one₀ (by norm_num)]
        ring
      · rfl

theorem toDouble?_trim (fuel : Nat) (d : Decimal) : (trim fuel d).toDouble? = d.toDouble? :=
  toDouble?_congr (trim_negative fuel d) (trim_value fuel d)

end Decimal

namespace Double

variable {x : Double}

theorem exactDecimal_negative (x : Double) : x.exactDecimal.negative = x.negative := by
  unfold exactDecimal
  split <;> rfl

theorem exactDecimal_value (x : Double) : x.exactDecimal.value = x.value := by
  unfold exactDecimal
  split
  · rename_i h
    obtain ⟨k, hk⟩ := Int.eq_ofNat_of_zero_le h
    simp [Decimal.value, value, num, hk]
  · rename_i h
    obtain ⟨k, hk⟩ := Int.eq_ofNat_of_zero_le (show 0 ≤ -x.exponent by omega)
    obtain hk' : x.exponent = -(k : Int) := by omega
    have hfive : (5 : ℚ) ^ k * (10 ^ k)⁻¹ = (2 ^ k)⁻¹ := by
      rw [show (10 : ℚ) = 5 * 2 by norm_num, mul_pow, mul_inv, ← mul_assoc,
        mul_inv_cancel₀ (by positivity), one_mul]
    simp [Decimal.value, value, hk', mul_assoc, hfive]

/-- The value of a finite number lies within the powers of ten that are looked at. -/
theorem log_value_bounds (hfinite : x.isFinite = true) (hx : x.isZero = false) :
    -331 ≤ Int.log 10 x.value ∧ Int.log 10 x.value < 310 := by
  have hmantissa := mantissa_pos hx
  have hpos : (0 : ℚ) < x.mantissa := by exact_mod_cast hmantissa
  have hvalue : 0 < x.value := mul_pos hpos (zpow_pos (by norm_num) _)
  have hexponent : -1074 ≤ x.exponent ∧ x.exponent ≤ 971 := by
    have := of_decide_eq_true hfinite
    rw [exponent]
    omega
  constructor
  · rw [← Int.zpow_le_iff_le_log (by decide) hvalue, value]
    have hpow : (2 : ℚ) ^ (1074 : Nat) ≤ 10 ^ (331 : Nat) := by
      exact_mod_cast (by decide +kernel : (2 : Nat) ^ 1074 ≤ 10 ^ 331)
    calc ((10 : ℕ) : ℚ) ^ (-331 : Int) ≤ 1 * 2 ^ (-1074 : Int) := by
          rw [one_mul, Nat.cast_ofNat, zpow_neg, zpow_neg, zpow_ofNat, zpow_ofNat]
          exact inv_anti₀ (by positivity) hpow
      _ ≤ x.mantissa * (2 : ℚ) ^ x.exponent := by
          apply mul_le_mul
          · exact_mod_cast hmantissa
          · exact zpow_le_zpow_right₀ (by norm_num) hexponent.1
          · exact zpow_nonneg (by norm_num) _
          · exact hpos.le
  · rw [← Int.lt_zpow_iff_log_lt (by decide) hvalue, value]
    calc x.mantissa * (2 : ℚ) ^ x.exponent ≤ (2 * exponentBit : Nat) * 2 ^ (971 : Int) := by
          apply mul_le_mul
          · exact_mod_cast (mantissa_lt x).le
          · exact zpow_le_zpow_right₀ (by norm_num) hexponent.2
          · exact zpow_nonneg (by norm_num) _
          · positivity
      _ < ((10 : ℕ) : ℚ) ^ (310 : Int) := by
          exact_mod_cast (by decide +kernel : 2 * exponentBit * 2 ^ 971 < 10 ^ 310)

theorem toDouble?_of_value {d : Decimal} (hfinite : x.isFinite = true) (hx : x.isZero = false)
    (hsign : d.negative = x.negative) (hvalue : d.value = x.value) : d.toDouble? = some x := by
  have hvalue₀ : 0 < x.value := by
    rw [← value_num_den]
    exact Quotient.value_pos (num_pos hx) x.den_pos
  have hcoefficient : d.coefficient ≠ 0 := by
    rw [ne_eq, ← Decimal.value_eq_zero, hvalue]
    exact hvalue₀.ne'
  obtain ⟨hlow, hhigh⟩ := log_value_bounds hfinite hx
  have hnearest : Quotient.nearest? (Quotient.scale 10 d.coefficient 1 (-d.exponent)).1
      (Quotient.scale 10 d.coefficient 1 (-d.exponent)).2 = some x.magnitude := by
    rw [← nearest?_num_den hfinite hx]
    apply Quotient.nearest?_congr (Quotient.scale_pos (by decide) Nat.one_pos _) x.den_pos
    rw [Decimal.value_scale, value_num_den, hvalue]
  simp only [Decimal.toDouble?, Decimal.length_add_exponent hcoefficient, hcoefficient, hvalue,
    false_or]
  rw [if_neg (by omega), if_neg (by omega), hnearest, hsign, Option.map_some, ofSigned_magnitude]

theorem ofSigned_zero (hx : x.isZero = true) : ofSigned x.negative 0 = x := by
  have hmagnitude : x.magnitude = 0 := by simpa [isZero] using hx
  rw [← hmagnitude, ofSigned_magnitude]

theorem onGrid?_toDouble? {place : Int} {d : Decimal} (h : x.onGrid? place = some d) :
    d.toDouble? = some x := by
  have hback {c : Nat} (hc : x.readsBack c place = true) :
      (Decimal.mk x.negative c place).toDouble? = some x := by
    unfold readsBack at hc
    split at hc
    · rename_i y hy
      rw [hy, eq_of_beq hc]
    · cases hc
  have htry (nearer other : Nat)
      (h : (if x.readsBack nearer place = true then some (Decimal.mk x.negative nearer place)
        else if x.readsBack other place = true then some ⟨x.negative, other, place⟩
        else none) = some d) : d.toDouble? = some x := by
    split at h
    · rename_i hc
      rw [← Option.some.inj h]
      exact hback hc
    · split at h
      · rename_i hc
        rw [← Option.some.inj h]
        exact hback hc
      · cases h
  exact htry _ _ h

theorem shortest_toDouble? (hfinite : x.isFinite = true) : x.shortest.toDouble? = some x := by
  unfold shortest
  split
  · rename_i hx
    simp [Decimal.toDouble?, ofSigned_zero hx]
  · rename_i hx
    rw [Bool.not_eq_true] at hx
    rw [Decimal.toDouble?_trim]
    cases hfound : (List.range 17).findSome? fun (more : Nat) =>
        x.onGrid? (Quotient.leadingPlace x.num x.den - more) with
    | none =>
        exact toDouble?_of_value hfinite hx x.exactDecimal_negative x.exactDecimal_value
    | some d =>
        obtain ⟨_, _, _, hd⟩ := List.findSome?_eq_some_iff.1 hfound
        exact onGrid?_toDouble? hd.2.1

theorem magnitude_ofSigned (negative : Bool) {magnitude : Nat} (h : magnitude < signBit) :
    (ofSigned negative magnitude).magnitude = magnitude := by
  simp only [signBit] at h
  cases negative
  · simp only [ofSigned, Double.magnitude, signBit, Bool.false_eq_true, if_false,
      UInt64.toNat_ofNat']
    omega
  · simp only [ofSigned, Double.magnitude, signBit, if_true, UInt64.toNat_ofNat']
    omega

theorem isFinite_ofSigned (negative : Bool) {magnitude : Nat}
    (h : magnitude < 2047 * exponentBit) : (ofSigned negative magnitude).isFinite = true := by
  have hsign : magnitude < signBit := Nat.lt_trans h (by decide)
  refine decide_eq_true ?_
  rw [biasedExponent, magnitude_ofSigned negative hsign]
  exact (Nat.div_lt_iff_lt_mul (by decide)).2 h

theorem nearest?_lt {n d magnitude : Nat} (h : Quotient.nearest? n d = some magnitude) :
    magnitude < 2047 * exponentBit := by
  simp only [Quotient.nearest?] at h
  split at h
  · rw [← Option.some.inj h]
    decide
  · split at h
    · rename_i hlt
      rw [← Option.some.inj h]
      exact hlt
    · cases h

theorem isFinite_of_toDouble? {d : Decimal} (h : d.toDouble? = some x) : x.isFinite = true := by
  simp only [Decimal.toDouble?] at h
  split at h
  · rw [← Option.some.inj h]
    exact isFinite_ofSigned _ (by decide)
  · split at h
    · cases h
    · obtain ⟨magnitude, hnearest, rfl⟩ := Option.map_eq_some_iff.1 h
      exact isFinite_ofSigned _ (nearest?_lt hnearest)

/-- The two zeros as one number. -/
def settled (x : Double) : Double :=
  if x.isZero then zero else x

@[simp] theorem isFinite_zero : zero.isFinite = true := by decide

theorem eq_of_isZero (hx : x.isZero = true) : x = ofSigned x.negative 0 :=
  (ofSigned_zero hx).symm

end Double

end TenantQuery
