import TenantQuery.Proofs.Number.Rounding

namespace TenantQuery

namespace Quotient

theorem div_le_round (n d : Nat) : n / d ≤ round n d := by
  unfold round
  split
  · exact le_rfl
  · split <;> omega

theorem round_le (n d : Nat) : round n d ≤ n / d + 1 := by
  unfold round
  split
  · omega
  · split <;> omega

theorem le_round_iff {n d m : Nat} (hd : 0 < d) (hm : m % 2 = 1) :
    m + 1 ≤ round n d ↔ (2 * m + 1) * d ≤ 2 * n := by
  have hn : n = d * (n / d) + n % d := (Nat.div_add_mod n d).symm
  have hmod : n % d < d := Nat.mod_lt n hd
  have hround := round_le n d
  have hdiv := div_le_round n d
  rcases Nat.lt_trichotomy (n / d) m with h | h | h
  · -- Too far below: one unit more does not reach.
    have hmul : d * (n / d + 1) ≤ d * m := Nat.mul_le_mul_left d h
    constructor
    · omega
    · intro hle
      rw [Nat.mul_add] at hmul
      rw [Nat.add_mul, Nat.mul_assoc, Nat.mul_comm m d] at hle
      omega
  · rw [h] at hn
    have hle : (2 * m + 1) * d ≤ 2 * n ↔ d ≤ 2 * (n % d) := by
      rw [Nat.add_mul, Nat.mul_assoc, Nat.mul_comm m d]
      omega
    rw [hle]
    unfold round
    rw [h]
    split
    · omega
    · split <;> omega
  · have hmul : d * (m + 1) ≤ d * (n / d) := Nat.mul_le_mul_left d h
    constructor
    · intro _
      rw [Nat.mul_add] at hmul
      rw [Nat.add_mul, Nat.mul_assoc, Nat.mul_comm m d]
      omega
    · omega

theorem le_round_iff_value {n d m : Nat} (hd : 0 < d) (hm : m % 2 = 1) :
    m + 1 ≤ round n d ↔ (m : ℚ) + 1 / 2 ≤ value n d := by
  have hd₀ : (0 : ℚ) < d := by exact_mod_cast hd
  have hcast : (2 * m + 1) * d ≤ 2 * n ↔ (2 * (m : ℚ) + 1) * d ≤ 2 * n := by exact_mod_cast Iff.rfl
  rw [le_round_iff hd hm, hcast, value, le_div_iff₀ hd₀]
  constructor <;> intro h <;> linarith

def limit : ℚ :=
  2 ^ 1024 - 2 ^ 970

theorem limit_eq : limit = (2 ^ 54 - 1) * 2 ^ 970 := by
  rw [limit, show 1024 = 54 + 970 from rfl, pow_add, sub_mul, one_mul]

theorem limit_bounds : 2 ^ 1023 ≤ limit ∧ limit ≤ 2 ^ 1024 := by
  have hpow : (0 : ℚ) < 2 ^ 970 := by positivity
  constructor
  · rw [limit_eq, show 1023 = 53 + 970 from rfl, pow_add]
    exact mul_le_mul_of_nonneg_right (by norm_num) hpow.le
  · exact sub_le_self _ hpow.le

theorem nearest?_eq_none {n d : Nat} (hn : 0 < n) (hd : 0 < d) :
    nearest? n d = none ↔ limit ≤ value n d := by
  have hpos := value_pos hn hd
  have hbase : (1 : ℕ) < 2 := by decide
  have hbit : Double.exponentBit = 2 ^ 52 := rfl
  have hunit := unitExponent_eq hn hd
  have hlog (k : Int) : Int.log 2 (value n d) < k ↔ value n d < ((2 : ℕ) : ℚ) ^ k :=
    (Int.lt_zpow_iff_log_lt hbase hpos).symm
  generalize Int.log 2 (value n d) = log at hunit hlog
  generalize hscale : scale 2 n d (unitExponent n d) = scaled
  have hscaled : 0 < scaled.2 := hscale ▸ scale_pos (by decide) hd _
  have hvalue : value scaled.1 scaled.2 = value n d / ((2 : ℕ) : ℚ) ^ unitExponent n d :=
    hscale ▸ value_scale (by decide) n d _
  have hquot (k : Nat) : scaled.1 / scaled.2 < 2 ^ k ↔ log < k + unitExponent n d := by
    rw [div_lt_iff_value_lt _ hscaled, hvalue, div_lt_iff₀ (zpow_pos (by norm_num) _), hlog,
      zpow_add₀ (by norm_num), zpow_natCast, Nat.cast_pow]
  have hnone : nearest? n d = none ↔
      2047 * 2 ^ 52 ≤ (unitExponent n d + 1074).toNat * 2 ^ 52 + round scaled.1 scaled.2 := by
    simp only [nearest?, hscale, hn.ne', if_false, hbit]
    split <;> simp <;> omega
  rw [hnone]
  have hround := round_le scaled.1 scaled.2
  have hdiv := div_le_round scaled.1 scaled.2
  rcases lt_trichotomy log 1023 with h | h | h
  · have hsmall := (hquot 53).2 (by omega)
    have hvalue : value n d < 2 ^ 1023 := by simpa using (hlog 1023).1 h
    refine ⟨fun hle => ?_, fun hle => absurd (hvalue.trans_le limit_bounds.1) (not_lt.2 hle)⟩
    omega
  · have he : unitExponent n d = 971 := by omega
    have htop : (971 + 1074 : Int).toNat = 2045 := by decide
    have hhalf : 2 ^ 53 ≤ round scaled.1 scaled.2 ↔
        ((2 ^ 53 - 1 : ℕ) : ℚ) + 1 / 2 ≤ value scaled.1 scaled.2 :=
      le_round_iff_value hscaled (by decide)
    have hlimit : limit = (((2 ^ 53 - 1 : ℕ) : ℚ) + 1 / 2) * ((2 : ℕ) : ℚ) ^ (971 : Int) := by
      rw [limit_eq, Nat.cast_ofNat, zpow_ofNat, show 971 = 1 + 970 from rfl, pow_add,
        ← mul_assoc]
      norm_num
    rw [he, htop, hlimit, ← le_div_iff₀ (zpow_pos (by norm_num) _), ← he, ← hvalue, ← hhalf]
    omega
  · have hlarge : ¬ scaled.1 / scaled.2 < 2 ^ 52 := by
      rw [hquot]
      omega
    have hvalue : (2 : ℚ) ^ 1024 ≤ value n d := by
      simpa using not_lt.1 (mt (hlog 1024).2 (by omega))
    exact ⟨fun _ => limit_bounds.2.trans hvalue, fun _ => by omega⟩

end Quotient

namespace Decimal

/-- A decimal has no nearest binary number exactly if it is past all of them. -/
theorem toDouble?_eq_none {d : Decimal} : d.toDouble? = none ↔ Quotient.limit ≤ d.value := by
  have hlimit : (1 : ℚ) ≤ Quotient.limit :=
    (one_le_pow₀ (by norm_num)).trans Quotient.limit_bounds.1
  by_cases hzero : d.coefficient = 0
  · have hvalue : d.value = 0 := value_eq_zero.2 hzero
    have hlt : ¬ Quotient.limit ≤ 0 := by linarith
    simp [toDouble?, hzero, hvalue, hlt]
  · have hpos := value_pos hzero
    have hlog (k : Int) : Int.log 10 d.value < k ↔ d.value < ((10 : ℕ) : ℚ) ^ k :=
      (Int.lt_zpow_iff_log_lt (by decide) hpos).symm
    have hden := Quotient.scale_pos (n := d.coefficient) (show 0 < 10 by decide) Nat.one_pos
      (-d.exponent)
    have hnum : 0 < (Quotient.scale 10 d.coefficient 1 (-d.exponent)).1 := by
      by_contra hnum
      rw [← value_scale, Quotient.value, Nat.eq_zero_of_not_pos hnum] at hpos
      simp at hpos
    have hnearest := Quotient.nearest?_eq_none hnum hden
    rw [value_scale] at hnearest
    simp only [toDouble?, length_add_exponent hzero, hzero, false_or]
    split
    · rename_i hlow
      have hvalue : d.value < 1 := by simpa using (hlog 0).1 (by omega)
      simp only [reduceCtorEq, false_iff, not_le]
      linarith
    · split
      · rename_i hhigh
        have hvalue : ((10 : ℕ) : ℚ) ^ (310 : Int) ≤ d.value := not_lt.1 (mt (hlog 310).2 (by omega))
        have hpow : (2 : ℚ) ^ 1024 ≤ ((10 : ℕ) : ℚ) ^ (310 : Int) := by
          exact_mod_cast (by decide +kernel : 2 ^ 1024 ≤ 10 ^ 310)
        simp only [true_iff]
        exact Quotient.limit_bounds.2.trans (hpow.trans hvalue)
      · simp only [Option.map_eq_none_iff, hnearest]

end Decimal

end TenantQuery
