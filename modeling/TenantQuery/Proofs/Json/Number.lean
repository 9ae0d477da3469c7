import TenantQuery.Json.Record
import TenantQuery.Proofs.Number.Layout
import TenantQuery.Proofs.Outcome

namespace TenantQuery.Json

open Outcome

theorem isLiteral_zero : IsLiteral "0" := by decide

theorem isLiteral_canonicalDouble (x : Double) : IsLiteral (canonicalDouble x) := by
  unfold canonicalDouble
  split
  · exact isLiteral_zero
  · split
    · exact Layout.isLiteral_decimal _ _
    · exact Layout.isLiteral_decimal _ _

theorem isLiteral_canonicalNumber {literal canonical : String} (hliteral : IsLiteral literal)
    (h : canonicalNumber literal = .ok canonical) : IsLiteral canonical := by
  simp only [canonicalNumber] at h
  split at h
  · split at h
    · rw [← Except.ok.inj h]
      exact isLiteral_canonicalDouble _
    · cases h
  · split at h
    · rw [← Except.ok.inj h]
      exact isLiteral_zero
    · rw [← Except.ok.inj h]
      exact hliteral

def intNumeral (n : Int) : Numeral :=
  Layout.wholeNumeral (n < 0) n.natAbs

theorem toList_toString_int (n : Int) : (toString n).toList = (intNumeral n).text := by
  rw [Int.toString_eq_repr, Int.repr_eq_if, intNumeral, Layout.text_wholeNumeral]
  by_cases hn : n < 0
  · have habs : (-n).toNat = n.natAbs := by omega
    rw [if_neg (by omega), String.toList_append, Nat.toList_repr, habs]
    simp [Numeral.signText, hn]
  · have habs : n.toNat = n.natAbs := by omega
    rw [if_pos (by omega), Nat.toList_repr, habs]
    simp [Numeral.signText, hn]

theorem isLiteral_toString_int (n : Int) : IsLiteral (toString n) := by
  have h := (intNumeral n).isLiteral
  rwa [← toList_toString_int, String.ofList_toList] at h

theorem isFractional_toString_int (n : Int) : isFractional (toString n) = false := by
  rw [isFractional, toList_toString_int, intNumeral, Layout.text_wholeNumeral, List.any_append,
    Bool.or_eq_false_iff]
  constructor
  · unfold Numeral.signText
    split <;> rfl
  · rw [List.any_eq_false]
    intro c hc
    have hdigit := Decimal.isDigit_of_mem_toDigits hc
    simp only [Bool.or_eq_true, beq_iff_eq, not_or]
    refine ⟨⟨?_, ?_⟩, ?_⟩ <;> rintro rfl <;> cases hdigit

/-- A number that is not zero is not spelled as the second zero. -/
theorem toString_int_ne_minus_zero (n : Int) : toString n ≠ "-0" := by
  intro h
  have hread := (intNumeral n).read_text
  have hzero : Decimal.read? "-0".toList = some ⟨true, 0, 0⟩ := by decide
  rw [← toList_toString_int, h, hzero, Option.some.injEq, Numeral.decimal, Decimal.mk.injEq] at hread
  obtain ⟨hsign, hvalue, -⟩ := hread
  have hnegative : n < 0 := by simpa [intNumeral, Layout.wholeNumeral] using hsign.symm
  simp only [intNumeral, Layout.wholeNumeral, List.append_nil, Decimal.natOf_toDigits] at hvalue
  omega

theorem canonicalNumber_toString_int (n : Int) :
    canonicalNumber (toString n) = .ok (toString n) := by
  rw [canonicalNumber, isFractional_toString_int, if_neg (by decide),
    if_neg (toString_int_ne_minus_zero n)]

theorem takeSign_toString_int (n : Int) :
    Decimal.takeSign (toString n).toList = (decide (n < 0), Nat.toDigits 10 n.natAbs) := by
  rw [toList_toString_int, (intNumeral n).takeSign_text]
  simp [intNumeral, Layout.wholeNumeral, Numeral.fractionText, Numeral.powerText]

theorem toString_int_injective {m n : Int} (h : toString m = toString n) : m = n := by
  have hsign := takeSign_toString_int m
  rw [h, takeSign_toString_int, Prod.mk.injEq, decide_eq_decide] at hsign
  obtain ⟨hnegative, hdigits⟩ := hsign
  have habs := congrArg Decimal.natOf hdigits
  rw [Decimal.natOf_toDigits, Decimal.natOf_toDigits] at habs
  omega

theorem toInt64?_toString {n : Int} (hn : Word.Holds n) : toInt64? (toString n) = some n := by
  simp only [toInt64?, isFractional_toString_int, Bool.false_eq_true, if_false,
    takeSign_toString_int, Decimal.natOf_toDigits]
  by_cases hneg : n < 0
  · have hvalue : -(n.natAbs : Int) = n := by omega
    simp only [hneg, decide_true, if_true, hvalue]
    exact if_pos hn
  · have hvalue : (n.natAbs : Int) = n := by omega
    simp only [hneg, decide_false, Bool.false_eq_true, if_false, hvalue]
    exact if_pos hn

theorem write_document_of_isZero {x : Double} (hx : x.isZero = true) (hnegative : x.negative = true) :
    String.ofList (Layout.document.write x) = "-0" := by
  simp [Layout.write, Double.shortest, hx, Layout.decimal, hnegative]

theorem isFinite_of_toDouble? {literal : String} {x : Double} (h : toDouble? literal = some x) :
    x.isFinite = true := by
  obtain ⟨d, -, hd⟩ := Option.bind_eq_some_iff.1 h
  exact Double.isFinite_of_toDouble? hd

theorem toDouble?_zero : toDouble? "0" = some Double.zero := by decide

theorem toDouble?_minus_zero : toDouble? "-0" = some (Double.ofSigned true 0) := by decide

theorem toDouble?_canonicalDouble {x : Double} (hx : x.isFinite = true) :
    toDouble? (canonicalDouble x) = some x.settled := by
  unfold canonicalDouble Double.settled
  split
  · exact toDouble?_zero
  · split
    · exact Layout.toDouble?_write _ hx
    · exact Layout.toDouble?_write _ hx

/-- What becomes of the number of a document in canonical form. -/
theorem canonicalNumber_document {x : Double} (hx : x.isFinite = true) : ∃ canonical,
    canonicalNumber (String.ofList (Layout.document.write x)) = .ok canonical ∧
      toDouble? canonical = some x.settled := by
  have hread := Layout.toDouble?_write Layout.document hx
  by_cases hfractional : isFractional (String.ofList (Layout.document.write x)) = true
  · refine ⟨canonicalDouble x, ?_, toDouble?_canonicalDouble hx⟩
    rw [canonicalNumber, if_pos hfractional, hread]
  · by_cases hminus : String.ofList (Layout.document.write x) = "-0"
    · refine ⟨"0", by rw [canonicalNumber, if_neg hfractional, if_pos hminus], ?_⟩
      rw [hminus, toDouble?_minus_zero, Option.some.injEq] at hread
      rw [← hread]
      decide
    · refine ⟨_, by rw [canonicalNumber, if_neg hfractional, if_neg hminus], ?_⟩
      have hsettled : x.settled = x := by
        unfold Double.settled
        split
        · rename_i hzero
          have hpositive : x.negative = false := by
            by_contra hnegative
            exact hminus (write_document_of_isZero hzero (by simpa using hnegative))
          rw [Double.eq_of_isZero hzero, hpositive]
          rfl
        · rfl
      rw [hread, hsettled]

theorem canonicalNumber_document_settled (x : Double) :
    canonicalNumber (String.ofList (Layout.document.write x.settled)) =
      canonicalNumber (String.ofList (Layout.document.write x)) := by
  unfold Double.settled
  split
  · rename_i hzero
    rw [Double.eq_of_isZero hzero]
    cases x.negative <;> decide
  · rfl

end TenantQuery.Json
