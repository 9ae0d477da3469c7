import TenantQuery.Text.Normal

namespace TenantQuery.Text

namespace Table

def all (p : Nat → List Nat → Bool) : Table → Bool
  | leaf => true
  | node left key cells right => left.all p && p key cells && right.all p

variable {p : Nat → List Nat → Bool} {t : Table} {n : Nat} {cells : List Nat}

theorem of_find? (hall : t.all p = true) (h : t.find? n = some cells) : p n cells = true := by
  induction t with
  | leaf => cases h
  | node left key row right ihleft ihright =>
      simp only [all, Bool.and_eq_true] at hall
      rw [find?] at h
      split at h
      · exact ihleft hall.1.1 h
      · split at h
        · rename_i hkey
          cases h
          exact hkey ▸ hall.1.2
        · exact ihright hall.2 h

theorem of_inRange? (hall : t.all p = true) (h : t.inRange? n = some cells) :
    ∃ first row, p first row = true ∧ row.drop 1 = cells := by
  induction t with
  | leaf => cases h
  | node left first row right ihleft ihright =>
      simp only [all, Bool.and_eq_true] at hall
      rw [inRange?] at h
      split at h
      · exact ihleft hall.1.1 h
      · split at h
        · exact ⟨first, row, hall.1.2, Option.some.inj h⟩
        · exact ihright hall.2 h

end Table

namespace Hangul

theorem mem_decompose? {m n : Nat} {ns : List Nat} (h : decompose? n = some ns) (hm : m ∈ ns) :
    0x1100 ≤ m ∧ m < 0x1200 := by
  unfold decompose? at h
  split at h
  · cases h
  · rename_i hrange
    have hlead : (n - firstSyllable) / 588 < 19 := by
      unfold firstSyllable at hrange ⊢
      omega
    have hvowel : (n - firstSyllable) % 588 / 28 < 21 := by omega
    have htail : (n - firstSyllable) % 28 < 28 := by omega
    cases h
    unfold firstLead firstVowel beforeFirstTail at hm
    split at hm
    all_goals
      simp only [List.mem_cons, List.not_mem_nil, or_false] at hm
      omega

end Hangul

section Decomposition

def leading (c : Char) : Nat :=
  (nonStarters c).1

/-- The run that stands before is ended by the first character or goes on to the last. -/
def isOneRun : List Nat → Bool
  | [] => false
  | [_] => true
  | n :: ns => leading (.ofNat n) = 0 || (n :: ns).all fun m => leading (.ofNat m) ≠ 0

/-- Rows of at most four characters that do not decompose, none of them for a part of a syllable. -/
def isSoundRow (key : Nat) (cells : List Nat) : Bool :=
  !(0x1100 ≤ key && key < 0x1200) && cells.length ≤ 4 && isOneRun cells &&
    cells.all fun n => n.isValidChar && decompose n = [n]

theorem decompositions_sound : Composition.decompositions.all isSoundRow = true := by
  decide +kernel

theorem decompose_cases (n : Nat) :
    decompose n = [n] ∨ Hangul.decompose? n = some (decompose n) ∨
      isSoundRow n (decompose n) = true := by
  unfold decompose
  split
  · exact .inl rfl
  · split
    · rename_i ns hns
      exact .inr (.inl hns)
    · cases hfind : Composition.decompositions.find? n with
      | none => exact .inl rfl
      | some cells => exact .inr (.inr (Table.of_find? decompositions_sound hfind))

theorem decompose_jamo {n : Nat} (h : 0x1100 ≤ n) (h' : n < 0x1200) : decompose n = [n] := by
  rcases decompose_cases n with hself | hsyllable | hrow
  · exact hself
  · have hbelow : n < Hangul.firstSyllable := by unfold Hangul.firstSyllable; omega
    rw [Hangul.decompose?, if_pos (.inl hbelow)] at hsyllable
    cases hsyllable
  · simp [isSoundRow, h, h'] at hrow

theorem decompose_of_mem {m n : Nat} (h : m ∈ decompose n) : decompose m = [m] := by
  rcases decompose_cases n with hself | hsyllable | hrow
  · rw [hself, List.mem_singleton] at h
    rw [h, hself]
  · obtain ⟨hlow, hhigh⟩ := Hangul.mem_decompose? hsyllable h
    exact decompose_jamo hlow hhigh
  · simp only [isSoundRow, Bool.and_eq_true, List.all_eq_true, decide_eq_true_eq] at hrow
    exact (hrow.2 m h).2

theorem isValidChar_of_mem {m n : Nat} (hn : n.isValidChar) (h : m ∈ decompose n) :
    m.isValidChar := by
  rcases decompose_cases n with hself | hsyllable | hrow
  · rw [hself, List.mem_singleton] at h
    rwa [h]
  · obtain ⟨-, hhigh⟩ := Hangul.mem_decompose? hsyllable h
    exact .inl (by omega)
  · simp only [isSoundRow, Bool.and_eq_true, List.all_eq_true, decide_eq_true_eq] at hrow
    exact (hrow.2 m h).1

end Decomposition

theorem toNat_range (c : Char) :
    c.toNat < 0xd800 ∨ (0xe000 ≤ c.toNat ∧ c.toNat < 0x110000) := by
  have h := c.valid
  simp only [UInt32.isValidChar, Nat.isValidChar] at h
  have hn : c.toNat = c.val.toNat := rfl
  omega

theorem toNat_lt (c : Char) : c.toNat < 0x1000000 := by
  have hrange := toNat_range c
  omega

theorem toNat_ofNat {n : Nat} (h : n.isValidChar) : (Char.ofNat n).toNat = n := by
  rw [Char.ofNat, dif_pos h]
  rfl

theorem decomposeChar_of_mem {c d : Char} (h : d ∈ decomposeChar c) : decomposeChar d = [d] := by
  obtain ⟨n, hn, rfl⟩ := List.mem_map.1 h
  rw [decomposeChar, toNat_ofNat (isValidChar_of_mem (c.valid) hn), decompose_of_mem hn,
    List.map_singleton]

theorem decomposeChar_ne_nil (c : Char) : decomposeChar c ≠ [] := by
  rw [decomposeChar, ne_eq, List.map_eq_nil_iff]
  intro hnil
  rcases decompose_cases c.toNat with hself | hsyllable | hrow
  · rw [hself] at hnil
    cases hnil
  · rw [hnil] at hsyllable
    unfold Hangul.decompose? at hsyllable
    split at hsyllable <;> cases hsyllable
  · rw [hnil] at hrow
    simp [isSoundRow, isOneRun] at hrow

theorem length_decomposeChar_le (c : Char) : (decomposeChar c).length ≤ 4 := by
  rw [decomposeChar, List.length_map]
  rcases decompose_cases c.toNat with hself | hsyllable | hrow
  · simp [hself]
  · unfold Hangul.decompose? at hsyllable
    split at hsyllable
    · cases hsyllable
    · rw [← Option.some.inj hsyllable]
      split <;> simp
  · simp only [isSoundRow, Bool.and_eq_true, decide_eq_true_eq] at hrow
    exact hrow.1.1.2

section Pairs

def isInert (c : Char) : Bool :=
  ('0' ≤ c && c ≤ '9') || c = '_'

theorem toNat_lt_of_inert {c : Char} (h : isInert c = true) : c.toNat < 0x60 := by
  simp only [isInert, Bool.or_eq_true, Bool.and_eq_true, decide_eq_true_eq] at h
  rcases h with ⟨-, hc⟩ | rfl
  · exact Nat.lt_of_le_of_lt hc (by decide)
  · decide

/-- Two characters are composed to one that decomposes into what the first decomposes into and the
second. -/
def isSoundPair (key : Nat) : List Nat → Bool
  | [k] =>
    !isInert (.ofNat (key / 0x1000000)) && k.isValidChar &&
      decompose k = decompose (key / 0x1000000) ++ [key % 0x1000000]
  | _ => false

theorem pairs_sound : Composition.pairs.all isSoundPair = true := by
  decide +kernel

namespace Hangul

/-- Syllables are told by their lead, their vowel and their tail. -/
theorem decompose_syllable {lead vowel tail : Nat} (hlead : lead < 19) (hvowel : vowel < 21)
    (htail : tail < 28) :
    decompose (firstSyllable + ((lead * 21 + vowel) * 28 + tail)) =
      (firstLead + lead) :: (firstVowel + vowel) ::
        if tail = 0 then [] else [beforeFirstTail + tail] := by
  have hindex : (lead * 21 + vowel) * 28 + tail < 11172 := by omega
  generalize hi : (lead * 21 + vowel) * 28 + tail = i at hindex
  have hlead : i / 588 = lead := by omega
  have hvowel : i % 588 / 28 = vowel := by omega
  have htail : i % 28 = tail := by omega
  have hrange : ¬ (firstSyllable + i < firstSyllable ∨ firstSyllable + 11172 ≤ firstSyllable + i) := by
    omega
  have hsome : decompose? (firstSyllable + i) = some ((firstLead + lead) :: (firstVowel + vowel) ::
      if tail = 0 then [] else [beforeFirstTail + tail]) := by
    rw [decompose?, if_neg hrange]
    simp only [Nat.add_sub_cancel_left, hlead, hvowel, htail]
  rw [decompose, if_neg (by unfold firstSyllable; omega), hsome]

theorem isInert_compose? {m n k : Nat} (h : compose? m n = some k) :
    isInert (.ofNat m) = false := by
  have hrange : 0x1100 ≤ m ∧ m < 0xd800 := by
    unfold compose? firstLead firstSyllable at h
    split at h
    · omega
    · split at h
      · omega
      · cases h
  rw [← Bool.not_eq_true]
  intro hinert
  have hlt := toNat_lt_of_inert hinert
  rw [toNat_ofNat (.inl hrange.2)] at hlt
  omega

theorem decompose_compose? {m n k : Nat} (h : compose? m n = some k) :
    k.isValidChar ∧ decompose k = decompose m ++ [n] := by
  unfold compose? at h
  split at h
  · rename_i hjamo
    obtain ⟨lead, rfl⟩ := Nat.exists_eq_add_of_le hjamo.1
    obtain ⟨vowel, rfl⟩ := Nat.exists_eq_add_of_le hjamo.2.2.1
    have hlead : lead < 19 := by omega
    have hvowel : vowel < 21 := by omega
    simp only [Nat.add_sub_cancel_left, Option.some.injEq] at h
    have hdecompose := decompose_syllable hlead hvowel (show 0 < 28 by decide)
    rw [Nat.add_zero, h, if_pos rfl] at hdecompose
    refine ⟨.inl ?_, ?_⟩
    · unfold firstSyllable at h
      omega
    · rw [hdecompose, decompose_jamo (by unfold firstLead; omega) (by unfold firstLead; omega)]
      rfl
  · split at h
    · rename_i hsyllable
      obtain ⟨i, rfl⟩ := Nat.exists_eq_add_of_le hsyllable.1
      obtain ⟨tail, rfl⟩ := Nat.exists_eq_add_of_lt hsyllable.2.2.2.1
      simp only [Nat.add_sub_cancel_left, Option.some.injEq] at h hsyllable
      have hlead : i / 588 < 19 := by omega
      have hvowel : i % 588 / 28 < 21 := by omega
      have htail : tail + 1 < 28 := by omega
      have hindex : i = (i / 588 * 21 + i % 588 / 28) * 28 := by omega
      have hbase := decompose_syllable hlead hvowel (show 0 < 28 by decide)
      have hjoined := decompose_syllable hlead hvowel htail
      rw [Nat.add_zero, ← hindex, if_pos rfl] at hbase
      rw [← hindex, if_neg (Nat.succ_ne_zero tail)] at hjoined
      have hk : k = firstSyllable + (i + (tail + 1)) := by omega
      refine ⟨.inl ?_, ?_⟩
      · unfold firstSyllable at hk
        omega
      · rw [hk, hjoined, hbase]
        rfl
    · cases h

end Hangul

theorem decompose_pair? {m n k : Nat} (hn : n < 0x1000000) (h : pair? m n = some k) :
    isInert (.ofNat m) = false ∧ k.isValidChar ∧ decompose k = decompose m ++ [n] := by
  unfold pair? at h
  split at h
  · rename_i hhangul
    cases h
    exact ⟨Hangul.isInert_compose? hhangul, Hangul.decompose_compose? hhangul⟩
  · obtain ⟨cells, hfind, hhead⟩ := Option.bind_eq_some_iff.1 h
    have hrow := Table.of_find? pairs_sound hfind
    have hfirst : (m * 0x1000000 + n) / 0x1000000 = m := by omega
    have hsecond : (m * 0x1000000 + n) % 0x1000000 = n := by omega
    match cells, hrow with
    | [k'], hrow =>
        cases hhead
        simpa only [isSoundPair, hfirst, hsecond, Bool.and_eq_true, Bool.not_eq_true',
          decide_eq_true_eq, and_assoc] using hrow

theorem decomposeChar_composePair? {a b c : Char} (h : composePair? a b = some c) :
    decomposeChar c = decomposeChar a ++ [b] := by
  obtain ⟨k, hk, rfl⟩ := Option.map_eq_some_iff.1 h
  obtain ⟨-, hvalid, hk⟩ := decompose_pair? (toNat_lt b) hk
  rw [decomposeChar, toNat_ofNat hvalid, hk, List.map_append, List.map_singleton, Char.ofNat_toNat]
  rfl

theorem composePair?_inert {c : Char} (hc : isInert c = true) (d : Char) :
    composePair? c d = none := by
  rw [composePair?, Option.map_eq_none_iff, Option.eq_none_iff_forall_ne_some]
  intro k hk
  have hinert := (decompose_pair? (toNat_lt d) hk).1
  rw [Char.ofNat_toNat, hc] at hinert
  cases hinert

end Pairs

section Tally

theorem nonStarters_sound : Composition.nonStarters.all
    (fun _ row => row.drop 1 = [0, 1] || row.drop 1 = [0, 2] || row.drop 1 = [1, 1]) = true := by
  decide +kernel

theorem nonStarters_le (c : Char) : (nonStarters c).1 ≤ 1 ∧ (nonStarters c).2 ≤ 2 := by
  unfold nonStarters
  split
  · decide
  · split
    · rename_i leading trailing hrow
      obtain ⟨first, row, hsound, hcells⟩ := Table.of_inRange? nonStarters_sound hrow
      rw [hcells] at hsound
      simp only [Bool.or_eq_true, decide_eq_true_eq, List.cons.injEq, and_true] at hsound
      omega
    · decide

theorem tally_le (count : Nat) (c : Char) : tally count c ≤ count + 2 := by
  have hle := nonStarters_le c
  unfold tally
  dsimp only
  split <;> omega

theorem tally_mark {c : Char} (h : combiningClass c ≠ 0) (count : Nat) :
    tally count c = count + 1 := by
  simp [tally, nonStarters, h]

theorem tally_of_leading {c : Char} (h : leading c = 0) (count : Nat) : tally count c = tally 0 c := by
  have hleading : (nonStarters c).1 = 0 := h
  simp [tally, hleading]

theorem le_tally {c : Char} (h : leading c ≠ 0) (count : Nat) : count ≤ tally count c := by
  have hleading : (nonStarters c).1 ≠ 0 := h
  simp [tally, hleading]

theorem tally_joiner (count : Nat) : tally count joiner = 0 := by
  have hnone : nonStarters joiner = (0, 0) := by decide +kernel
  simp [tally, hnone]

theorem decomposeChar_joiner : decomposeChar joiner = [joiner] := by decide +kernel

theorem Hangul.leading_lead : ∀ lead : Fin 19, leading (.ofNat (firstLead + lead)) = 0 := by
  decide +kernel

/-- The first character ends the run before it, or the run goes on to the last. -/
theorem leading_decomposeChar {c d : Char} {ds : List Char} (h : decomposeChar c = d :: ds) :
    leading d = 0 ∨ ∀ e ∈ d :: ds, leading e ≠ 0 := by
  have hsingle (e : Char) : leading e = 0 ∨ ∀ e' ∈ [e], leading e' ≠ 0 := by
    by_cases he : leading e = 0
    · exact .inl he
    · exact .inr (by simpa using he)
  rw [decomposeChar] at h
  rcases decompose_cases c.toNat with hself | hsyllable | hrow
  · rw [hself, List.map_singleton] at h
    cases h
    exact hsingle _
  · unfold Hangul.decompose? at hsyllable
    split at hsyllable
    · cases hsyllable
    · rename_i hrange
      have hlead : (c.toNat - Hangul.firstSyllable) / 588 < 19 := by omega
      rw [← Option.some.inj hsyllable, List.map_cons, List.cons.injEq] at h
      exact .inl (h.1 ▸ Hangul.leading_lead ⟨_, hlead⟩)
  · simp only [isSoundRow, Bool.and_eq_true] at hrow
    have hrun := hrow.1.2
    match decompose c.toNat, h, hrun with
    | [n], h, _ =>
        cases h
        exact hsingle _
    | n :: m :: ns, h, hrun =>
        cases h
        simp only [isOneRun, Bool.or_eq_true, decide_eq_true_eq, List.all_eq_true] at hrun
        refine hrun.imp_right fun hall e he => ?_
        obtain ⟨k, hk, rfl⟩ := List.mem_map.1 (show e ∈ (n :: m :: ns).map Char.ofNat from he)
        exact hall k hk

end Tally

end TenantQuery.Text
