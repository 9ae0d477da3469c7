import TenantQuery.Json.Reader
import TenantQuery.Proofs.Number.Digits

namespace TenantQuery.Json

/-- Text that cannot continue a number. -/
def Closes (rest : List Char) : Prop :=
  ∀ c ∈ rest.head?, isDigit c = false ∧ c ≠ '.' ∧ c ≠ 'e' ∧ c ≠ 'E'

theorem closes_nil : Closes [] := by
  simp [Closes]

/-- A text that is read as a number from its first character to its last. -/
def IsLiteral (literal : String) : Prop :=
  readNumber literal.toList = some (literal, [])

instance : DecidablePred IsLiteral := fun literal =>
  inferInstanceAs (Decidable (readNumber literal.toList = some (literal, [])))

def Digits (cs : List Char) : Prop :=
  cs ≠ [] ∧ ∀ c ∈ cs, isDigit c = true

namespace Literal

def Sign (cs : List Char) : Prop :=
  cs = [] ∨ cs = ['-']

/-- Only zero itself begins with zero. -/
def Whole (cs : List Char) : Prop :=
  cs = ['0'] ∨ Digits cs ∧ cs.head? ≠ some '0'

def Fraction (cs : List Char) : Prop :=
  cs = [] ∨ ∃ digits, Digits digits ∧ cs = '.' :: digits

def Power (cs : List Char) : Prop :=
  cs = [] ∨ ∃ mark sign digits, (mark = 'e' ∨ mark = 'E') ∧
    (sign = [] ∨ sign = ['+'] ∨ sign = ['-']) ∧ Digits digits ∧ cs = mark :: (sign ++ digits)

end Literal

inductive Literal : List Char → Prop
  | mk {sign whole fraction power : List Char} (sign_ok : Literal.Sign sign)
      (whole_ok : Literal.Whole whole) (fraction_ok : Literal.Fraction fraction)
      (power_ok : Literal.Power power) : Literal (sign ++ (whole ++ (fraction ++ power)))

theorem takeDigits_digits {digits rest : List Char} (hdigits : ∀ c ∈ digits, isDigit c = true)
    (hrest : ∀ c ∈ rest.head?, isDigit c = false) : takeDigits (digits ++ rest) = (digits, rest) :=
  Prod.ext (Decimal.takeWhile_isDigit hdigits hrest).1 (Decimal.takeWhile_isDigit hdigits hrest).2

theorem takeDigits_eq {cs digits rest : List Char} (h : takeDigits cs = (digits, rest)) :
    (∀ c ∈ digits, isDigit c = true) ∧ cs = digits ++ rest := by
  rw [takeDigits, Prod.mk.injEq] at h
  obtain ⟨rfl, rfl⟩ := h
  exact ⟨List.all_eq_true.1 List.all_takeWhile, List.takeWhile_append_dropWhile.symm⟩

namespace Literal

variable {sign whole fraction power cs tail rest : List Char}

theorem Whole.digits (h : Whole whole) : Digits whole := by
  rcases h with rfl | ⟨h, -⟩
  · exact ⟨List.cons_ne_nil _ _, List.forall_mem_singleton.2 rfl⟩
  · exact h

theorem not_sign {digits : List Char} (h : Digits digits) :
    ∃ c ds, digits = c :: ds ∧ c ≠ '-' ∧ c ≠ '+' := by
  obtain ⟨c, ds, rfl⟩ := List.exists_cons_of_ne_nil h.1
  have hc := h.2 c (by simp)
  refine ⟨c, ds, rfl, ?_, ?_⟩ <;> rintro rfl <;> cases hc

theorem Power.head (h : Power power) (hrest : Closes rest) :
    ∀ c ∈ (power ++ rest).head?, isDigit c = false ∧ c ≠ '.' := by
  rcases h with rfl | ⟨mark, sign, digits, hmark, -, -, rfl⟩
  · intro c hc
    obtain ⟨hdigit, hpoint, -⟩ := hrest c hc
    exact ⟨hdigit, hpoint⟩
  · rcases hmark with rfl | rfl <;> simp [isDigit]

theorem Fraction.head (h : Fraction fraction)
    (htail : ∀ c ∈ tail.head?, isDigit c = false ∧ c ≠ '.') :
    ∀ c ∈ (fraction ++ tail).head?, isDigit c = false := by
  rcases h with rfl | ⟨digits, -, rfl⟩
  · exact fun c hc => (htail c hc).1
  · simp [isDigit]

theorem Sign.read (h : Sign sign) (hwhole : Whole whole) :
    readMinus (sign ++ (whole ++ tail)) = (sign, whole ++ tail) := by
  rcases h with rfl | rfl
  · obtain ⟨c, digits, rfl, hminus, -⟩ := not_sign hwhole.digits
    simp [readMinus, hminus]
  · rfl

theorem sign_of_read (h : readMinus cs = (sign, tail)) : Sign sign ∧ cs = sign ++ tail := by
  unfold readMinus at h
  split at h <;> (rw [Prod.mk.injEq] at h; obtain ⟨rfl, rfl⟩ := h)
  · exact ⟨.inr rfl, rfl⟩
  · exact ⟨.inl rfl, rfl⟩

theorem Whole.read (h : Whole whole) (htail : ∀ c ∈ tail.head?, isDigit c = false) :
    readWhole (whole ++ tail) = some (whole, tail) := by
  rcases h with rfl | ⟨hdigits, hzero⟩
  · rfl
  · have htake := takeDigits_digits hdigits.2 htail
    obtain ⟨c, digits, rfl⟩ := List.exists_cons_of_ne_nil hdigits.1
    have hc : c ≠ '0' := by
      rintro rfl
      exact hzero rfl
    rw [List.cons_append] at htake ⊢
    rw [readWhole.eq_2 _ (fun x hx => hc (List.cons.inj hx).1), htake]

theorem whole_of_read (h : readWhole cs = some (whole, tail)) : Whole whole ∧ cs = whole ++ tail := by
  unfold readWhole at h
  split at h
  · simp only [Option.some.injEq, Prod.mk.injEq] at h
    obtain ⟨rfl, rfl⟩ := h
    exact ⟨.inl rfl, rfl⟩
  · rename_i hzero
    split at h
    · cases h
    · rename_i found hne
      rw [Option.some.injEq] at h
      obtain ⟨hdigits, rfl⟩ := takeDigits_eq h
      refine ⟨.inr ⟨⟨?_, hdigits⟩, ?_⟩, rfl⟩
      · rintro rfl
        exact hne tail h
      · intro hhead
        obtain ⟨digits, rfl⟩ := List.head?_eq_some_iff.1 hhead
        exact hzero _ rfl

theorem Fraction.read (h : Fraction fraction)
    (htail : ∀ c ∈ tail.head?, isDigit c = false ∧ c ≠ '.') :
    readFraction (fraction ++ tail) = some (fraction, tail) := by
  rcases h with rfl | ⟨digits, hdigits, rfl⟩
  · cases tail with
    | nil => rfl
    | cons c tail => simp [readFraction, (htail c rfl).2]
  · have htake := takeDigits_digits hdigits.2 fun c hc => (htail c hc).1
    obtain ⟨c, digits, rfl⟩ := List.exists_cons_of_ne_nil hdigits.1
    rw [List.cons_append, readFraction, htake]

theorem fraction_of_read (h : readFraction cs = some (fraction, tail)) :
    Fraction fraction ∧ cs = fraction ++ tail := by
  unfold readFraction at h
  split at h
  · split at h
    · cases h
    · rename_i rest digits rest' hne htake
      simp only [Option.some.injEq, Prod.mk.injEq] at h
      obtain ⟨rfl, rfl⟩ := h
      obtain ⟨hdigits, rfl⟩ := takeDigits_eq htake
      exact ⟨.inr ⟨digits, ⟨hne, hdigits⟩, rfl⟩, rfl⟩
  · simp only [Option.some.injEq, Prod.mk.injEq] at h
    obtain ⟨rfl, rfl⟩ := h
    exact ⟨.inl rfl, rfl⟩

theorem readExponentSign_of_sign (hsign : sign = [] ∨ sign = ['+'] ∨ sign = ['-'])
    {digits : List Char} (hdigits : Digits digits) :
    readExponentSign (sign ++ (digits ++ rest)) = (sign, digits ++ rest) := by
  rcases hsign with rfl | rfl | rfl
  · obtain ⟨c, digits, rfl, hminus, hplus⟩ := not_sign hdigits
    simp [readExponentSign, hplus, hminus]
  · rfl
  · rfl

theorem Power.read (h : Power power) (hrest : Closes rest) :
    readExponent (power ++ rest) = some (power, rest) := by
  rcases h with rfl | ⟨mark, sign, digits, hmark, hsign, hdigits, rfl⟩
  · cases rest with
    | nil => rfl
    | cons c rest => simp [readExponent, (hrest c rfl).2.2]
  · have htake := takeDigits_digits hdigits.2 fun c hc => (hrest c hc).1
    simp only [List.cons_append, List.append_assoc, readExponent, hmark, if_true,
      readExponentSign_of_sign hsign hdigits, htake]
    obtain ⟨c, digits, rfl⟩ := List.exists_cons_of_ne_nil hdigits.1
    rfl

theorem power_of_read (h : readExponent cs = some (power, tail)) :
    Power power ∧ cs = power ++ tail := by
  unfold readExponent at h
  split at h
  · simp only [Option.some.injEq, Prod.mk.injEq] at h
    obtain ⟨rfl, rfl⟩ := h
    exact ⟨.inl rfl, rfl⟩
  · rename_i c rest
    split at h
    · rename_i hmark
      have hsign : ((readExponentSign rest).1 = [] ∨ (readExponentSign rest).1 = ['+'] ∨
          (readExponentSign rest).1 = ['-']) ∧
          rest = (readExponentSign rest).1 ++ (readExponentSign rest).2 := by
        unfold readExponentSign
        split <;> simp
      dsimp only at h
      split at h
      · cases h
      · rename_i digits rest' hne htake
        simp only [Option.some.injEq, Prod.mk.injEq] at h
        obtain ⟨rfl, rfl⟩ := h
        obtain ⟨hdigits, hrest⟩ := takeDigits_eq htake
        refine ⟨.inr ⟨c, _, digits, hmark, hsign.1, ⟨hne, hdigits⟩, rfl⟩, ?_⟩
        rw [List.cons_append, List.append_assoc, ← hrest, ← hsign.2]
    · simp only [Option.some.injEq, Prod.mk.injEq] at h
      obtain ⟨rfl, rfl⟩ := h
      exact ⟨.inl rfl, rfl⟩

theorem head (h : Literal cs) : ∃ c tail, cs = c :: tail ∧ (c = '-' ∨ isDigit c = true) := by
  obtain ⟨hsign, hwhole, -, -⟩ := h
  rcases hsign with rfl | rfl
  · obtain ⟨hne, hdigits⟩ := hwhole.digits
    obtain ⟨c, digits, rfl⟩ := List.exists_cons_of_ne_nil hne
    exact ⟨c, _, rfl, .inr (hdigits c (by simp))⟩
  · exact ⟨'-', _, rfl, .inl rfl⟩

/-- A literal is read as a number, whatever closes it. -/
theorem read (h : Literal cs) (hrest : Closes rest) :
    readNumber (cs ++ rest) = some (String.ofList cs, rest) := by
  obtain ⟨hsign, hwhole, hfraction, hpower⟩ := h
  have htail := hpower.head hrest
  simp only [readNumber, List.append_assoc, hsign.read hwhole, hwhole.read (hfraction.head htail),
    hfraction.read htail, hpower.read hrest, Option.bind_eq_bind, Option.bind_some, Option.pure_def]

theorem isLiteral (h : Literal cs) : IsLiteral (String.ofList cs) := by
  simpa [IsLiteral] using h.read closes_nil

theorem of_readNumber {literal : String} (h : readNumber cs = some (literal, tail)) :
    Literal literal.toList ∧ cs = literal.toList ++ tail := by
  simp only [readNumber, Option.bind_eq_bind, Option.bind_eq_some_iff, Prod.exists,
    Option.pure_def, Option.some.injEq, Prod.mk.injEq] at h
  obtain ⟨whole, tail₁, hwhole, fraction, tail₂, hfraction, power, tail₃, hpower, rfl, rfl⟩ := h
  obtain ⟨hsign, hcs⟩ := sign_of_read (Prod.eta (readMinus cs)).symm
  obtain ⟨hwhole, htail⟩ := whole_of_read hwhole
  obtain ⟨hfraction, htail₁⟩ := fraction_of_read hfraction
  obtain ⟨hpower, htail₂⟩ := power_of_read hpower
  have hliteral := Literal.mk hsign hwhole hfraction hpower
  refine ⟨by simpa [List.append_assoc] using hliteral, ?_⟩
  rw [htail, htail₁, htail₂] at hcs
  simpa [List.append_assoc] using hcs

theorem of_isLiteral {literal : String} (h : IsLiteral literal) : Literal literal.toList :=
  (of_readNumber h).1

theorem Power.decimal (h : Power power) : ∃ e, Decimal.readExponent power = some e := by
  rcases h with rfl | ⟨mark, sign, digits, hmark, hsign, hdigits, rfl⟩
  · exact ⟨0, rfl⟩
  · obtain ⟨minus, htake⟩ : ∃ minus, Decimal.takeSign (sign ++ digits) = (minus, digits) := by
      rcases hsign with rfl | rfl | rfl
      · obtain ⟨c, digits, rfl, hminus, hplus⟩ := not_sign hdigits
        exact ⟨false, by simp [Decimal.takeSign, hplus, hminus]⟩
      · exact ⟨false, rfl⟩
      · exact ⟨true, rfl⟩
    have hall : digits.all Decimal.isDigit = true := List.all_eq_true.2 hdigits.2
    obtain ⟨c, digits, rfl⟩ := List.exists_cons_of_ne_nil hdigits.1
    simp only [Decimal.readExponent, if_pos hmark, htake, if_pos hall]
    exact ⟨_, rfl⟩

theorem takeSign_sign (hsign : Sign sign) (hwhole : Whole whole) :
    Decimal.takeSign (sign ++ (whole ++ tail)) = (decide (sign = ['-']), whole ++ tail) := by
  rcases hsign with rfl | rfl
  · obtain ⟨c, digits, rfl, hminus, hplus⟩ := not_sign hwhole.digits
    simp [Decimal.takeSign, hplus, hminus]
  · rfl

/-- The decimal of a literal, up to its power of ten. -/
theorem read?_eq (hsign : Sign sign) (hwhole : Whole whole) (hfraction : Fraction fraction)
    (hpower : Power power) :
    Decimal.read? (sign ++ (whole ++ (fraction ++ power))) =
      (Decimal.readExponent power).map fun e =>
        ⟨sign = ['-'], Decimal.natOf (whole ++ fraction.tail), e - fraction.tail.length⟩ := by
  have htail : ∀ c ∈ power.head?, isDigit c = false ∧ c ≠ '.' := by
    simpa using hpower.head closes_nil
  obtain ⟨htakeWhole, hdropWhole⟩ :=
    Decimal.takeWhile_isDigit hwhole.digits.2 (hfraction.head htail)
  have hne : whole.isEmpty = false := by simp [hwhole.digits.1]
  simp only [Decimal.read?, takeSign_sign hsign hwhole, htakeWhole, hdropWhole, hne, Bool.false_and,
    Bool.false_eq_true, if_false]
  rcases hfraction with rfl | ⟨digits, hdigits, rfl⟩
  · cases power with
    | nil => rfl
    | cons c power => simp [(htail c rfl).2]
  · obtain ⟨htake, hdrop⟩ := Decimal.takeWhile_isDigit hdigits.2 fun c hc => (htail c hc).1
    simp only [List.cons_append, htake, hdrop, List.tail_cons]

theorem exists_decimal (h : Literal cs) : ∃ d, Decimal.read? cs = some d := by
  obtain ⟨hsign, hwhole, hfraction, hpower⟩ := h
  obtain ⟨e, he⟩ := hpower.decimal
  exact ⟨_, by rw [read?_eq hsign hwhole hfraction hpower, he, Option.map_some]⟩

end Literal

end TenantQuery.Json
