import TenantQuery.Proofs.Text
import TenantQuery.Uuid

namespace TenantQuery

namespace Uuid

def respelled (spell : Char → Char) (u : Uuid) : List Char :=
  (Text.Hex.padded 32 u.value.toNat).map spell

theorem hyphenate_map (spell : Char → Char) (hhyphen : spell '-' = '-') (digits : List Char) :
    (hyphenate digits).map spell = hyphenate (digits.map spell) := by
  simp only [hyphenate, List.map_append, List.map_cons, List.map_take, List.map_drop, hhyphen]

theorem filter_hyphenate {digits : List Char} (h : ∀ c ∈ digits, c ≠ '-') :
    (hyphenate digits).filter (· ≠ '-') = digits := by
  have hkeep (cs : List Char) (hcs : cs ⊆ digits) : cs.filter (· ≠ '-') = cs := by
    rw [List.filter_eq_self]
    intro c hc
    simpa using h c (hcs hc)
  have hsub (i n : Nat) : (digits.drop i).take n ⊆ digits :=
    fun _ hc => List.mem_of_mem_drop (List.mem_of_mem_take hc)
  have hdrop (i n : Nat) : (digits.drop i).take n ++ digits.drop (i + n) = digits.drop i := by
    rw [← List.drop_drop, List.take_append_drop]
  simp only [hyphenate, List.filter_append, List.filter_cons, ne_eq, not_true, decide_false,
    Bool.false_eq_true, if_false]
  have h0 := hkeep (digits.take 8) (List.take_subset 8 digits)
  have h1 := hkeep _ (hsub 8 4)
  have h2 := hkeep _ (hsub 12 4)
  have h3 := hkeep _ (hsub 16 4)
  have h4 := hkeep (digits.drop 20) (List.drop_subset 20 digits)
  simp only [ne_eq] at h0 h1 h2 h3 h4
  rw [h0, h1, h2, h3, h4, hdrop 16 4, hdrop 12 4, hdrop 8 4, List.take_append_drop]

/-- Respelling the digits keeps identifiers apart as long as the digits keep their values. -/
theorem eq_of_chars_map_eq (spell : Char → Char) (hhyphen : spell '-' = '-')
    (hspell : ∀ k < 16, Text.Hex.value? (spell (Text.Hex.digit k)) = some k) {u v : Uuid}
    (h : u.chars.map spell = v.chars.map spell) : u = v := by
  have hdigits (w : Uuid) : (w.chars.map spell).filter (· ≠ '-') = w.respelled spell := by
    rw [chars, hyphenate_map spell hhyphen]
    apply filter_hyphenate
    intro c hc
    obtain ⟨d, hd, rfl⟩ := List.mem_map.1 hc
    obtain ⟨k, hk, rfl⟩ := Text.Hex.mem_padded hd
    intro hcontra
    have hk' := hspell k hk
    rw [hcontra] at hk'
    simp [Text.Hex.value?] at hk'
  have hnumber (w : Uuid) : Text.Hex.number? (w.respelled spell) = some w.value.toNat := by
    rw [respelled, Text.Hex.number?_map_padded spell hspell]
    have hlt := w.value.isLt
    rw [Nat.mod_eq_of_lt (by omega)]
  have heq : u.value.toNat = v.value.toNat := by
    have := hnumber u
    rw [← hdigits u, h, hdigits v, hnumber v] at this
    exact (Option.some.inj this).symm
  cases u
  cases v
  exact congrArg Uuid.mk (BitVec.eq_of_toNat_eq heq)

theorem upperText_injective {u v : Uuid} (h : u.upperText = v.upperText) : u = v :=
  eq_of_chars_map_eq Char.toUpper rfl Text.Hex.value?_upper_digit (String.ofList_injective h)

theorem text_injective {u v : Uuid} (h : u.text = v.text) : u = v := by
  have hchars : u.chars = v.chars := String.ofList_injective h
  refine eq_of_chars_map_eq id rfl Text.Hex.value?_digit ?_
  rw [hchars]

theorem toList_octets (bs : ByteArray) : bs.toList = bs.data.toList := by
  have hloop (i : Nat) (r : List UInt8) :
      ByteArray.toList.loop bs i r = r.reverse ++ bs.data.toList.drop i := by
    fun_induction ByteArray.toList.loop bs i r with
    | case1 i r hi ih =>
        have hget : bs.get! i = bs.data.toList[i] := by
          have h : bs.get! i = bs.data[i]! := rfl
          rw [h, getElem!_pos bs.data i hi, Array.getElem_toList]
        rw [ih, List.drop_eq_getElem_cons hi, List.reverse_cons, List.append_assoc, hget]
        rfl
    | case2 i r hi =>
        rw [List.drop_eq_nil_of_le (by simpa using hi), List.append_nil]
  rw [ByteArray.toList, hloop 0 [], List.reverse_nil, List.nil_append, List.drop_zero]

theorem octetChars_ofList {cs : List Char} (h : ∀ c ∈ cs, c.toNat < 128) :
    octetChars (String.ofList cs) = cs := by
  have hoctets : octetChars (String.ofList cs) =
      (cs.flatMap String.utf8EncodeChar).map fun b => Char.ofNat b.toNat := by
    rw [octetChars, toList_octets]
    simp [String.toUTF8, String.ofList, List.utf8Encode]
  rw [hoctets]
  clear hoctets
  induction cs with
  | nil => rfl
  | cons c cs ih =>
      obtain ⟨hc, hcs⟩ := List.forall_mem_cons.1 h
      have hencode : String.utf8EncodeChar c = [UInt8.ofNat c.toNat] := by
        simp only [String.utf8EncodeChar]
        exact if_pos (Nat.le_of_lt_succ hc)
      have hoctet : Char.ofNat (UInt8.ofNat c.toNat).toNat = c := by
        rw [UInt8.toNat_ofNat', Nat.mod_eq_of_lt (Nat.lt_trans hc (by decide)), Char.ofNat_toNat]
      rw [List.flatMap_cons, hencode, List.map_append, ih hcs, List.map_singleton, hoctet]
      rfl

theorem mem_chars {u : Uuid} {c : Char} (h : c ∈ u.chars) :
    c = '-' ∨ ∃ k < 16, c = Text.Hex.digit k := by
  have hsub (cs : List Char) (i n : Nat) (h : c ∈ (cs.drop i).take n) : c ∈ cs :=
    List.mem_of_mem_drop (List.mem_of_mem_take h)
  have hdigit (h : c ∈ Text.Hex.padded 32 u.value.toNat) : ∃ k < 16, c = Text.Hex.digit k :=
    Text.Hex.mem_padded h
  simp only [chars, hyphenate, List.mem_append, List.mem_cons] at h
  rcases h with h | h | h | h | h | h | h | h | h
  · exact .inr (hdigit (List.mem_of_mem_take h))
  · exact .inl h
  · exact .inr (hdigit (hsub _ _ _ h))
  · exact .inl h
  · exact .inr (hdigit (hsub _ _ _ h))
  · exact .inl h
  · exact .inr (hdigit (hsub _ _ _ h))
  · exact .inl h
  · exact .inr (hdigit (List.mem_of_mem_drop h))

theorem ofHyphenated?_hyphenate {digits : List Char} (h : digits.length = 32) :
    (hyphenate digits).length = 36 ∧ ofHyphenated? (hyphenate digits) = ofDigits? digits := by
  match digits, h with
  | [d0, d1, d2, d3, d4, d5, d6, d7, d8, d9, d10, d11,
      d12, d13, d14, d15, d16, d17, d18, d19, d20, d21,
      d22, d23, d24, d25, d26, d27, d28, d29, d30, d31], _ => exact ⟨rfl, rfl⟩

theorem parse_text (u : Uuid) : parse u.text = .ok u := by
  have hchars : octetChars u.text = u.chars := by
    refine octetChars_ofList fun c hc => ?_
    have hdigit : ∀ k < 16, (Text.Hex.digit k).toNat < 128 := by decide
    rcases mem_chars hc with rfl | ⟨k, hk, rfl⟩
    · decide
    · exact hdigit k hk
  have hlength : (Text.Hex.padded 32 u.value.toNat).length = 32 := Text.Hex.length_padded 32 _
  obtain ⟨hlength', hread⟩ := ofHyphenated?_hyphenate hlength
  have hnumber := Text.Hex.number?_map_padded id Text.Hex.value?_digit 32 u.value.toNat
  have hsmall : u.value.toNat < 16 ^ 32 := u.value.isLt
  rw [List.map_id, Nat.mod_eq_of_lt hsmall] at hnumber
  simp only [parse, hchars, chars, hlength', hread, ofDigits?, hlength, if_true, hnumber,
    Option.map_some, orMalformed, BitVec.ofNat_toNat, BitVec.setWidth_eq]

end Uuid

end TenantQuery
