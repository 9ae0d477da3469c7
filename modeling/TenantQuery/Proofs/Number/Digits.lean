import Mathlib.Tactic.Ring
import TenantQuery.Number.Decimal

namespace TenantQuery.Decimal

theorem isDigit_of_mem_toDigits {n : Nat} {c : Char} (h : c ∈ Nat.toDigits 10 n) :
    isDigit c = true :=
  Nat.isDigit_of_mem_toDigits (by decide) (by decide) h

theorem natOf_foldl (digits : List Char) (n : Nat) :
    digits.foldl (fun n c => 10 * n + digitValue c) n = n * 10 ^ digits.length + natOf digits := by
  induction digits generalizing n with
  | nil => simp [natOf]
  | cons c digits ih =>
      have hhead : natOf (c :: digits) = digitValue c * 10 ^ digits.length + natOf digits := by
        rw [← ih (digitValue c)]
        simp [natOf]
      rw [List.foldl_cons, ih, hhead, List.length_cons, Nat.pow_succ]
      ring

theorem natOf_append (as bs : List Char) :
    natOf (as ++ bs) = natOf as * 10 ^ bs.length + natOf bs := by
  rw [natOf, List.foldl_append, natOf_foldl]
  rfl

theorem natOf_cons (c : Char) (digits : List Char) :
    natOf (c :: digits) = digitValue c * 10 ^ digits.length + natOf digits := by
  rw [← List.singleton_append, natOf_append]
  simp [natOf]

theorem natOf_toDigits (n : Nat) : natOf (Nat.toDigits 10 n) = n :=
  Nat.ofDigitChars_ten_toDigits

theorem natOf_replicate_zero (n : Nat) : natOf (List.replicate n '0') = 0 := by
  induction n with
  | zero => rfl
  | succ n ih =>
      rw [List.replicate_succ, natOf_cons, ih]
      simp [digitValue]

theorem natOf_replicate_zero_append (n : Nat) (digits : List Char) :
    natOf (List.replicate n '0' ++ digits) = natOf digits := by
  rw [natOf_append, natOf_replicate_zero, Nat.zero_mul, Nat.zero_add]

theorem digitValue_lt {c : Char} (h : isDigit c = true) : digitValue c < 10 := by
  simp only [isDigit, Bool.and_eq_true, decide_eq_true_eq, Char.le_def] at h
  have h9 : c.val.toNat ≤ 57 := h.2
  simp only [digitValue, Char.toNat]
  omega

theorem natOf_lt {digits : List Char} (h : ∀ c ∈ digits, isDigit c = true) :
    natOf digits < 10 ^ digits.length := by
  induction digits with
  | nil => simp [natOf]
  | cons c digits ih =>
      have hc := digitValue_lt (h c (by simp))
      have hrest := ih fun d hd => h d (by simp [hd])
      rw [natOf_cons, List.length_cons, Nat.pow_succ]
      calc digitValue c * 10 ^ digits.length + natOf digits
          < digitValue c * 10 ^ digits.length + 10 ^ digits.length := by omega
        _ = (digitValue c + 1) * 10 ^ digits.length := by ring
        _ ≤ 10 * 10 ^ digits.length := Nat.mul_le_mul_right _ hc
        _ = 10 ^ digits.length * 10 := Nat.mul_comm _ _

/-- The digits of a number other than zero do not begin with zero. -/
theorem toDigits_eq_cons {n : Nat} (hn : n ≠ 0) :
    ∃ c digits, Nat.toDigits 10 n = c :: digits ∧ c ≠ '0' := by
  cases hdigits : Nat.toDigits 10 n with
  | nil => exact absurd hdigits Nat.toDigits_ne_nil
  | cons c digits =>
      refine ⟨c, digits, rfl, ?_⟩
      rintro rfl
      -- Without its zero the list would be shorter than the number allows.
      have hall : ∀ d ∈ digits, isDigit d = true := fun d hd =>
        isDigit_of_mem_toDigits (n := n) (by rw [hdigits]; exact List.mem_cons_of_mem _ hd)
      have hvalue : natOf digits = n := by
        rw [← natOf_toDigits n, hdigits, natOf_cons]
        simp [digitValue]
      have hlt := natOf_lt hall
      rw [hvalue] at hlt
      have hpos : 0 < digits.length := by
        rcases Nat.eq_zero_or_pos digits.length with h | h
        · rw [h] at hlt
          omega
        · exact h
      have hlength := (Nat.length_toDigits_le_iff (by decide) hpos).2 hlt
      rw [hdigits, List.length_cons] at hlength
      omega

theorem takeWhile_isDigit {digits rest : List Char} (hdigits : ∀ c ∈ digits, isDigit c = true)
    (hrest : ∀ c ∈ rest.head?, isDigit c = false) :
    (digits ++ rest).takeWhile isDigit = digits ∧ (digits ++ rest).dropWhile isDigit = rest := by
  induction digits with
  | nil =>
      cases rest with
      | nil => simp
      | cons c rest => simp [hrest c rfl]
  | cons c digits ih =>
      have hc := hdigits c (by simp)
      have hrest := ih fun d hd => hdigits d (by simp [hd])
      simp [hc, hrest]

end TenantQuery.Decimal
