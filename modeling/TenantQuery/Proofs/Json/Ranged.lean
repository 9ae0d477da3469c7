import TenantQuery.Proofs.Json.Canonical
import TenantQuery.Proofs.Json.Plain
import TenantQuery.Proofs.Json.Verbatim

namespace TenantQuery.Json

open Outcome

variable {α : Type}

inductive Ranged : Json → Prop
  | null : Ranged .null
  | bool (b : Bool) : Ranged (.bool b)
  | string (s : String) : Ranged (.string s)
  | number {literal : String} {x : Double} (read : toDouble? literal = some x) :
      Ranged (.number literal)
  | array {items : List Json} (each : ∀ j ∈ items, Ranged j) : Ranged (.array items)
  | object {members : List (String × Json)} (each : ∀ m ∈ members, Ranged m.2) :
      Ranged (.object members)

def AllRanged (ms : List (String × Json)) : Prop :=
  ∀ m ∈ ms, m.2.Ranged

attribute [simp] Ranged.null Ranged.bool Ranged.string

@[simp] theorem ranged_array {items : List Json} :
    (array items).Ranged ↔ ∀ j ∈ items, j.Ranged :=
  ⟨fun | .array each => each, .array⟩

@[simp] theorem ranged_object {ms : List (String × Json)} : (object ms).Ranged ↔ AllRanged ms :=
  ⟨fun | .object each => each, .object⟩

/-- A word is far below the first number that there is none for. -/
theorem ranged_ofInt {n : Int} (hn : Word.Holds n) : (ofInt n).Ranged := by
  have hread : toDouble? (toString n) = (intNumeral n).decimal.toDouble? := by
    rw [toDouble?, toList_toString_int, (intNumeral n).read_text, Option.bind_some]
  have hvalue : (intNumeral n).decimal.value = n.natAbs := by
    simp [Decimal.value, Numeral.decimal, Numeral.exponent, intNumeral, Layout.wholeNumeral,
      Decimal.natOf_toDigits]
  have hbound : n.natAbs ≤ 2 ^ 63 := by
    simp only [Word.Holds, Word.half] at hn
    omega
  have hlimit : ((2 ^ 63 : ℕ) : ℚ) < Quotient.limit := by
    refine lt_of_lt_of_le ?_ Quotient.limit_bounds.1
    rw [Nat.cast_pow]
    exact pow_lt_pow_right₀ (by norm_num) (by norm_num)
  have hsome : (intNumeral n).decimal.toDouble? ≠ none := by
    rw [ne_eq, Decimal.toDouble?_eq_none, hvalue, not_le]
    exact lt_of_le_of_lt (by exact_mod_cast hbound) hlimit
  obtain ⟨x, hx⟩ := Option.ne_none_iff_exists'.1 hsome
  exact .number (hread.trans hx)

theorem ranged_ofDouble {x : Double} (hx : x.isFinite = true) : (ofDouble x).Ranged :=
  .number (Layout.toDouble?_write _ hx)

section Members

variable {encode : α → Json} {name : String}

@[simp] theorem ranged_listOrNull {v : Option (List α)} :
    (listOrNull encode v).Ranged ↔ ∀ as ∈ v, ∀ a ∈ as, (encode a).Ranged := by
  cases v with
  | none => simp [listOrNull]
  | some as => simp [listOrNull]

@[simp] theorem allRanged_nil : AllRanged [] :=
  List.forall_mem_nil _

@[simp] theorem allRanged_cons {m : String × Json} {ms : List (String × Json)} :
    AllRanged (m :: ms) ↔ m.2.Ranged ∧ AllRanged ms :=
  List.forall_mem_cons

@[simp] theorem allRanged_append {ms ns : List (String × Json)} :
    AllRanged (ms ++ ns) ↔ AllRanged ms ∧ AllRanged ns :=
  List.forall_mem_append

@[simp] theorem allRanged_ifSome {v : Option α} :
    AllRanged (ifSome name encode v) ↔ ∀ a ∈ v, (encode a).Ranged := by
  cases v <;> simp [ifSome]

@[simp] theorem allRanged_ifAny {v : Option (List α)} :
    AllRanged (ifAny name encode v) ↔ ∀ as ∈ v, ∀ a ∈ as, (encode a).Ranged := by
  match v with
  | none | some [] => simp [ifAny]
  | some (a :: as) => simp [ifAny]

@[simp] theorem allRanged_ifText {v : String} : AllRanged (ifText name v) := by
  unfold ifText
  split <;> simp

@[simp] theorem ranged_tagged {type : String} {ms : List (String × Json)} :
    (tagged type ms).Ranged ↔ AllRanged ms := by
  rw [tagged, ranged_object, allRanged_cons, and_iff_right (.string type)]

end Members

theorem toDouble?_canonicalNumber {literal canonical : String} {x : Double}
    (h : toDouble? literal = some x) (hcanonical : canonicalNumber literal = .ok canonical) :
    ∃ y, toDouble? canonical = some y := by
  unfold canonicalNumber at hcanonical
  split at hcanonical
  · rw [h] at hcanonical
    cases hcanonical
    exact ⟨_, toDouble?_canonicalDouble (isFinite_of_toDouble? h)⟩
  · split at hcanonical
    · cases hcanonical
      exact ⟨_, toDouble?_zero⟩
    · cases hcanonical
      exact ⟨x, h⟩

theorem NormalOf.ranged {j w : Json} (h : NormalOf j w) (hj : j.Ranged) : w.Ranged := by
  induction h with
  | null => exact .null
  | bool b => exact .bool b
  | string s => exact .string _
  | number spelled =>
      cases hj with
      | number read =>
          obtain ⟨y, hy⟩ := toDouble?_canonicalNumber read spelled
          exact .number hy
  | array length each ih =>
      rw [ranged_array] at hj ⊢
      intro w hw
      obtain ⟨i, hi, rfl⟩ := List.mem_iff_getElem.1 hw
      exact ih i (length.symm ▸ hi) hi (hj _ (List.getElem_mem _))
  | object form each kept strict ih =>
      rw [ranged_object] at hj ⊢
      intro m hm
      obtain ⟨key, v, hlast, -, rfl⟩ := (kept m).1 hm
      exact ih key v hlast (hj _ (lastWins_subset _ (mem_lastWins (m := (key, v)).2 hlast)))

theorem Ranged.settled {j : Json} (hj : j.Ranged) (h : j.Settles) : j.settled.Ranged :=
  h.normalOf.ranged hj

/-- Only numbers out of range keep a value from being read as a plain one. -/
theorem Ranged.exists_plain {j : Json} (h : j.Ranged) : ∃ k, plain j = .ok k := by
  induction h with
  | null | bool _ | string _ => exact ⟨_, rfl⟩
  | number read => exact ⟨_, by simp only [plain, read]; rfl⟩
  | @array items each ih =>
      have hitems : ∃ ks, plainItems items = .ok ks := by
        clear each
        induction items with
        | nil => exact ⟨[], rfl⟩
        | cons j js ihs =>
            obtain ⟨⟨k, hk⟩, hjs⟩ := List.forall_mem_cons.1 ih
            obtain ⟨ks, hks⟩ := ihs hjs
            exact ⟨k :: ks, by simp only [plainItems, hk, hks, ok_bind, pure_eq_ok]⟩
      obtain ⟨ks, hks⟩ := hitems
      exact ⟨.array ks, by rw [plain, hks, map_ok]⟩
  | @object members each ih =>
      have hmembers : ∃ es, plainMembers members = .ok es := by
        clear each
        induction members with
        | nil => exact ⟨[], rfl⟩
        | cons m ms ihs =>
            obtain ⟨⟨k, hk⟩, hms⟩ := List.forall_mem_cons.1 ih
            obtain ⟨es, hes⟩ := ihs hms
            exact ⟨(m.1, k) :: es, by simp only [plainMembers, hk, hes, ok_bind, pure_eq_ok]⟩
      obtain ⟨es, hes⟩ := hmembers
      exact ⟨_, by rw [plain, hes, map_ok]⟩

end TenantQuery.Json
