import Mathlib.Algebra.Group.Nat.Defs
import Mathlib.Data.List.Sort
import TenantQuery.Proofs.Text.Normal
import TenantQuery.Text.Hex
import TenantQuery.Text.Units
import TenantQuery.Text.Utf8

namespace TenantQuery.Text

namespace Hex

theorem number?_append (cs : List Char) (c : Char) :
    number? (cs ++ [c]) = (number? cs).bind fun n => (value? c).map (16 * n + ·) := by
  simp only [number?, List.foldlM_append, List.foldlM_cons, List.foldlM_nil, bind_pure]
  rfl

/-- Digits that are respelled one by one, each to a digit of the same value, write the same number. -/
theorem number?_map_padded (spell : Char → Char)
    (hspell : ∀ k < 16, value? (spell (digit k)) = some k) (width n : Nat) :
    number? ((padded width n).map spell) = some (n % 16 ^ width) := by
  induction width generalizing n with
  | zero => simp [padded, number?, Nat.mod_one]
  | succ width ih =>
      rw [padded, List.map_append, List.map_cons, List.map_nil, number?_append, ih,
        Option.bind_some, hspell _ (Nat.mod_lt n (by decide)), Option.map_some]
      congr 1
      rw [Nat.pow_succ, Nat.mul_comm (16 ^ width) 16, Nat.mod_mul]
      omega

theorem value?_digit (k : Nat) (h : k < 16) : value? (digit k) = some k := by
  have hall : ∀ i : Fin 16, value? (digit i) = some i.val := by decide
  exact hall ⟨k, h⟩

theorem value?_upper_digit (k : Nat) (h : k < 16) : value? (digit k).toUpper = some k := by
  have hall : ∀ i : Fin 16, value? (digit i).toUpper = some i.val := by decide
  exact hall ⟨k, h⟩

theorem length_padded (width n : Nat) : (padded width n).length = width := by
  induction width generalizing n with
  | zero => rfl
  | succ width ih => simp [padded, ih]

theorem mem_padded {width n : Nat} {c : Char} (h : c ∈ padded width n) : ∃ k < 16, c = digit k := by
  induction width generalizing n with
  | zero => simp [padded] at h
  | succ width ih =>
      rw [padded, List.mem_append, List.mem_singleton] at h
      rcases h with h | h
      · exact ih h
      · exact ⟨n % 16, Nat.mod_lt n (by decide), h⟩

end Hex

theorem lexLe_total (as bs : List Nat) : lexLe as bs = true ∨ lexLe bs as = true := by
  induction as generalizing bs with
  | nil => exact .inl rfl
  | cons a as ih =>
      cases bs with
      | nil => exact .inr rfl
      | cons b bs =>
          simp only [lexLe, Bool.or_eq_true, Bool.and_eq_true, decide_eq_true_eq, beq_iff_eq]
          have := ih bs
          rcases Nat.lt_trichotomy a b with h | h | h
          · exact .inl (.inl h)
          · rcases this with h' | h'
            · exact .inl (.inr ⟨h, h'⟩)
            · exact .inr (.inr ⟨h.symm, h'⟩)
          · exact .inr (.inl h)

theorem lexLe_antisymm {as bs : List Nat} (h : lexLe as bs = true) (h' : lexLe bs as = true) :
    as = bs := by
  induction as generalizing bs with
  | nil =>
      cases bs with
      | nil => rfl
      | cons b bs => simp [lexLe] at h'
  | cons a as ih =>
      cases bs with
      | nil => simp [lexLe] at h
      | cons b bs =>
          simp only [lexLe, Bool.or_eq_true, Bool.and_eq_true, decide_eq_true_eq, beq_iff_eq] at h h'
          rcases h with h | ⟨rfl, h⟩
          · omega
          · rcases h' with h' | ⟨-, h'⟩
            · omega
            · rw [ih h h']

theorem lexLe_trans {as bs cs : List Nat} (h : lexLe as bs = true) (h' : lexLe bs cs = true) :
    lexLe as cs = true := by
  induction as generalizing bs cs with
  | nil => rfl
  | cons a as ih =>
      cases bs with
      | nil => simp [lexLe] at h
      | cons b bs =>
          cases cs with
          | nil => simp [lexLe] at h'
          | cons c cs =>
              simp only [lexLe, Bool.or_eq_true, Bool.and_eq_true, decide_eq_true_eq,
                beq_iff_eq] at h h' ⊢
              rcases h with h | ⟨rfl, h⟩
              · rcases h' with h' | ⟨rfl, -⟩
                · exact .inl (Nat.lt_trans h h')
                · exact .inl h
              · rcases h' with h' | ⟨rfl, h'⟩
                · exact .inl h'
                · exact .inr ⟨rfl, ih h h'⟩

/-- Lists that come first by the codes of their entries are smaller, if the codes tell the entries
apart and keep their order. -/
theorem lt_of_lexLe {α : Type} [LT α] {code : α → Nat} (hcode : Function.Injective code)
    (hlt : ∀ {a b}, code a < code b → a < b) {as bs : List α}
    (hle : lexLe (as.map code) (bs.map code) = true) (hne : as ≠ bs) : as < bs := by
  induction as generalizing bs with
  | nil =>
      cases bs with
      | nil => exact absurd rfl hne
      | cons b bs => exact List.nil_lt_cons b bs
  | cons a as ih =>
      cases bs with
      | nil => simp [lexLe] at hle
      | cons b bs =>
          simp only [List.map_cons, lexLe, Bool.or_eq_true, Bool.and_eq_true, decide_eq_true_eq,
            beq_iff_eq] at hle
          rw [List.cons_lt_cons_iff]
          rcases hle with hab | ⟨hab, hle⟩
          · exact .inl (hlt hab)
          · obtain rfl := hcode hab
            exact .inr ⟨rfl, ih hle fun heq => hne (by rw [heq])⟩

/-- The units of a character tell it apart from every other, whatever follows. -/
theorem unitsOf_append_inj {c d : Char} {as bs : List Nat}
    (h : unitsOf c ++ as = unitsOf d ++ bs) : c = d ∧ as = bs := by
  have hc := toNat_range c
  have hd := toNat_range d
  simp only [unitsOf] at h
  split at h <;> split at h <;>
    simp only [List.cons_append, List.nil_append, List.cons.injEq] at h
  · exact ⟨Char.toNat_inj.1 h.1, h.2⟩
  · omega
  · omega
  · exact ⟨Char.toNat_inj.1 (by omega), h.2.2⟩

theorem units_injective {s t : String} (h : units s = units t) : s = t := by
  have hchars (cs ds : List Char) (h : cs.flatMap unitsOf = ds.flatMap unitsOf) : cs = ds := by
    have hpos (c : Char) : unitsOf c ≠ [] := by
      unfold unitsOf
      dsimp only
      split <;> simp
    induction cs generalizing ds with
    | nil =>
        cases ds with
        | nil => rfl
        | cons d ds => simp [hpos] at h
    | cons c cs ih =>
        cases ds with
        | nil => simp [hpos] at h
        | cons d ds =>
            rw [List.flatMap_cons, List.flatMap_cons] at h
            obtain ⟨rfl, hrest⟩ := unitsOf_append_inj h
            rw [ih ds hrest]
  exact String.toList_injective (hchars _ _ h)

theorem unitsLe_antisymm {s t : String} (h : unitsLe s t = true) (h' : unitsLe t s = true) : s = t :=
  units_injective (lexLe_antisymm h h')

theorem codesLe_antisymm {s t : String} (h : codesLe s t = true) (h' : codesLe t s = true) :
    s = t := by
  have hcodes := lexLe_antisymm h h'
  exact String.toList_injective (List.map_injective_iff.2 (fun _ _ => Char.toNat_inj.1) hcodes)

abbrev utf8 (cs : List Char) : List UInt8 :=
  cs.flatMap String.utf8EncodeChar

theorem octets_ofList (cs : List Char) : octets (String.ofList cs) = utf8 cs := by
  simp [octets, String.toUTF8, List.utf8Encode]

theorem eq_ofNat_of_mem_utf8EncodeChar {c : Char} {b : UInt8} (h : b ∈ String.utf8EncodeChar c)
    (hb : b.toNat < 0x80) : c = Char.ofNat b.toNat := by
  have hc := toNat_range c
  have hval : c.val.toNat = c.toNat := rfl
  simp only [String.utf8EncodeChar, hval] at h
  split at h
  · rename_i hsmall
    rw [List.mem_singleton.1 h, UInt8.toNat_ofNat', Nat.mod_eq_of_lt (by omega), Char.ofNat_toNat]
  · exfalso
    split at h
    · simp only [List.mem_cons, List.not_mem_nil, or_false] at h
      rcases h with rfl | rfl <;> rw [UInt8.toNat_ofNat'] at hb <;> omega
    · split at h <;> simp only [List.mem_cons, List.not_mem_nil, or_false] at h
      · rcases h with rfl | rfl | rfl <;> rw [UInt8.toNat_ofNat'] at hb <;> omega
      · rcases h with rfl | rfl | rfl | rfl <;> rw [UInt8.toNat_ofNat'] at hb <;> omega

namespace Utf8

variable {n : Nat}

theorem toNat_ofNat (h : n < 256) : (UInt8.ofNat n).toNat = n := by
  rw [UInt8.toNat_ofNat', Nat.mod_eq_of_lt h]

theorem le_ofNat_iff {low : UInt8} (h : n < 256) : low ≤ UInt8.ofNat n ↔ low.toNat ≤ n := by
  rw [UInt8.le_iff_toNat_le, toNat_ofNat h]

theorem ofNat_le_iff {high : UInt8} (h : n < 256) : UInt8.ofNat n ≤ high ↔ n ≤ high.toNat := by
  rw [UInt8.le_iff_toNat_le, toNat_ofNat h]

theorem ofNat_eq_iff {b : UInt8} (h : n < 256) : UInt8.ofNat n = b ↔ n = b.toNat := by
  rw [← UInt8.toNat_inj, toNat_ofNat h]

theorem lead?_ofNat (h : n < 256) :
    lead? (UInt8.ofNat n) =
      if n ≤ 0x7f then some (1, 0, 0)
      else if 0xc2 ≤ n ∧ n ≤ 0xdf then some (2, 0x80, 0xbf)
      else if n = 0xe0 then some (3, 0xa0, 0xbf)
      else if n = 0xed then some (3, 0x80, 0x9f)
      else if 0xe1 ≤ n ∧ n ≤ 0xef then some (3, 0x80, 0xbf)
      else if n = 0xf0 then some (4, 0x90, 0xbf)
      else if 0xf1 ≤ n ∧ n ≤ 0xf3 then some (4, 0x80, 0xbf)
      else if n = 0xf4 then some (4, 0x80, 0x8f)
      else none := by
  simp only [lead?, Bool.and_eq_true, decide_eq_true_eq, beq_iff_eq, le_ofNat_iff h,
    ofNat_le_iff h, ofNat_eq_iff h, UInt8.reduceToNat]

/-- The octet of six bits that follows a lead octet is in a range if its code is. -/
theorem between_ofNat {low high : UInt8} (h : n < 64) (hlow : low.toNat ≤ n + 128)
    (hhigh : n + 128 ≤ high.toNat) :
    (decide (low ≤ UInt8.ofNat (n + 128)) && decide (UInt8.ofNat (n + 128) ≤ high)) = true := by
  simp only [Bool.and_eq_true, decide_eq_true_eq]
  exact ⟨(le_ofNat_iff (by omega)).2 hlow, (ofNat_le_iff (by omega)).2 hhigh⟩

theorem isTail_ofNat (h : n < 64) : isTail (UInt8.ofNat (n + 128)) = true :=
  between_ofNat h (show 128 ≤ _ by omega) (show _ ≤ 191 by omega)

theorem tailBits_ofNat (h : n < 64) : tailBits (UInt8.ofNat (n + 128)) = n := by
  rw [tailBits, toNat_ofNat (by omega)]
  omega

theorem character?_one (h : n ≤ 0x7f) (rest : List UInt8) :
    character? (UInt8.ofNat n) rest = some (Char.ofNat n, 0) := by
  have hn : n < 256 := by omega
  simp only [character?, lead?_ofNat hn, if_pos h, toNat_ofNat hn]

theorem character?_two (h : 0x7f < n) (h' : n ≤ 0x7ff) (rest : List UInt8) :
    character? (UInt8.ofNat (n / 64 % 32 + 192)) (UInt8.ofNat (n % 64 + 128) :: rest) =
      some (Char.ofNat n, 1) := by
  have hb : n % 64 < 64 := by omega
  have ha : n / 64 % 32 + 192 < 256 := by omega
  have hlead : lead? (UInt8.ofNat (n / 64 % 32 + 192)) = some (2, 0x80, 0xbf) := by
    rw [lead?_ofNat ha, if_neg (by omega), if_pos (by omega)]
  have hcode : (n / 64 % 32 + 192) % 32 * 64 + n % 64 = n := by omega
  simp only [character?, hlead, show (decide _ && decide _) = true from isTail_ofNat hb, if_true,
    toNat_ofNat ha, tailBits_ofNat hb, hcode]

/-- The range after the lead leaves out the codes of fewer octets and those of surrogates, which no
character has. -/
theorem character?_three (h : 0x7ff < n) (h' : n ≤ 0xffff) (hplain : n < 0xd800 ∨ 0xe000 ≤ n)
    (rest : List UInt8) :
    character? (UInt8.ofNat (n / 4096 % 16 + 224))
      (UInt8.ofNat (n / 64 % 64 + 128) :: UInt8.ofNat (n % 64 + 128) :: rest) =
      some (Char.ofNat n, 2) := by
  have hc : n % 64 < 64 := by omega
  have hb : n / 64 % 64 < 64 := by omega
  have ha : n / 4096 % 16 + 224 < 256 := by omega
  have hcode : ((n / 4096 % 16 + 224) % 16 * 64 + n / 64 % 64) * 64 + n % 64 = n := by omega
  obtain ⟨low, high, hlead, hlow, hhigh⟩ : ∃ low high : UInt8,
      lead? (UInt8.ofNat (n / 4096 % 16 + 224)) = some (3, low, high) ∧
      low.toNat ≤ n / 64 % 64 + 128 ∧ n / 64 % 64 + 128 ≤ high.toNat := by
    rw [lead?_ofNat ha, if_neg (by omega), if_neg (by omega)]
    split
    · exact ⟨_, _, rfl, show 160 ≤ _ by omega, show _ ≤ 191 by omega⟩
    · split
      · exact ⟨_, _, rfl, show 128 ≤ _ by omega, show _ ≤ 159 by omega⟩
      · rw [if_pos (by omega)]
        exact ⟨_, _, rfl, show 128 ≤ _ by omega, show _ ≤ 191 by omega⟩
  simp only [character?, hlead, between_ofNat hb hlow hhigh, isTail_ofNat hc, Bool.and_self, if_true,
    toNat_ofNat ha, tailBits_ofNat hb, tailBits_ofNat hc, hcode]

theorem character?_four (h : 0xffff < n) (h' : n < 0x110000) (rest : List UInt8) :
    character? (UInt8.ofNat (n / 262144 % 8 + 240))
      (UInt8.ofNat (n / 4096 % 64 + 128) :: UInt8.ofNat (n / 64 % 64 + 128) ::
        UInt8.ofNat (n % 64 + 128) :: rest) = some (Char.ofNat n, 3) := by
  have hd : n % 64 < 64 := by omega
  have hc : n / 64 % 64 < 64 := by omega
  have hb : n / 4096 % 64 < 64 := by omega
  have ha : n / 262144 % 8 + 240 < 256 := by omega
  have hcode : (((n / 262144 % 8 + 240) % 8 * 64 + n / 4096 % 64) * 64 + n / 64 % 64) * 64 + n % 64 =
      n := by omega
  obtain ⟨low, high, hlead, hlow, hhigh⟩ : ∃ low high : UInt8,
      lead? (UInt8.ofNat (n / 262144 % 8 + 240)) = some (4, low, high) ∧
      low.toNat ≤ n / 4096 % 64 + 128 ∧ n / 4096 % 64 + 128 ≤ high.toNat := by
    rw [lead?_ofNat ha, if_neg (by omega), if_neg (by omega), if_neg (by omega), if_neg (by omega),
      if_neg (by omega)]
    split
    · exact ⟨_, _, rfl, show 144 ≤ _ by omega, show _ ≤ 191 by omega⟩
    · split
      · exact ⟨_, _, rfl, show 128 ≤ _ by omega, show _ ≤ 191 by omega⟩
      · rw [if_pos (by omega)]
        exact ⟨_, _, rfl, show 128 ≤ _ by omega, show _ ≤ 143 by omega⟩
  simp only [character?, hlead, between_ofNat hb hlow hhigh, isTail_ofNat hc, isTail_ofNat hd,
    Bool.and_self, if_true, toNat_ofNat ha, tailBits_ofNat hb, tailBits_ofNat hc, tailBits_ofNat hd,
    hcode]

theorem decode_utf8EncodeChar (c : Char) (bs : List UInt8) :
    decode (String.utf8EncodeChar c ++ bs) = c :: decode bs := by
  have hrange := toNat_range c
  have hval : c.val.toNat = c.toNat := rfl
  simp only [String.utf8EncodeChar, hval]
  split
  · rename_i hone
    simp only [List.cons_append, List.nil_append, decode, decodeFrom, character?_one hone,
      Char.ofNat_toNat]
  · rename_i hone
    split
    · rename_i htwo
      simp only [List.cons_append, List.nil_append, decode, decodeFrom,
        character?_two (by omega) htwo, Char.ofNat_toNat]
    · rename_i htwo
      split
      · rename_i hthree
        simp only [List.cons_append, List.nil_append, decode, decodeFrom,
          character?_three (by omega) hthree (by omega), Char.ofNat_toNat]
      · simp only [List.cons_append, List.nil_append, decode, decodeFrom,
          character?_four (show 0xffff < c.toNat by omega) (by omega), Char.ofNat_toNat]

theorem decode_utf8 (cs : List Char) : decode (utf8 cs) = cs := by
  induction cs with
  | nil => rfl
  | cons c cs ih => rw [utf8, List.flatMap_cons, decode_utf8EncodeChar, ih]

end Utf8

end TenantQuery.Text
