import TenantQuery.Json.Canonical
import TenantQuery.Proofs.Json.Text
import TenantQuery.Proofs.Outcome

namespace TenantQuery.Json

open Text (utf8)

theorem unescapeLines_cons {b : UInt8} (hb : b ≠ 0x5c) (rest : List UInt8) :
    unescapeLines (b :: rest) = b :: unescapeLines rest :=
  unescapeLines.eq_4 b rest (fun _ h _ => hb h) (fun _ h _ => hb h) (fun _ _ h _ => hb h)

theorem unescapeLines_append {bs : List UInt8} (h : 0x5c ∉ bs) (rest : List UInt8) :
    unescapeLines (bs ++ rest) = bs ++ unescapeLines rest := by
  induction bs with
  | nil => rfl
  | cons b bs ih =>
      rw [List.mem_cons, not_or] at h
      rw [List.cons_append, unescapeLines_cons (Ne.symm h.1), ih h.2, List.cons_append]

theorem unescapeLines_short {b : UInt8} (hb : b ≠ 0x75) (rest : List UInt8) :
    unescapeLines (0x5c :: b :: rest) = 0x5c :: b :: unescapeLines rest :=
  unescapeLines.eq_3 b rest (fun _ h _ => hb h) (fun _ h _ => hb h)

/-- The start of an escape by a code other than those of the line ends is copied. -/
theorem unescapeLines_code {b : UInt8} (hb : b ≠ 0x32) (rest : List UInt8) :
    unescapeLines (0x5c :: 0x75 :: b :: rest) = 0x5c :: 0x75 :: unescapeLines (b :: rest) :=
  unescapeLines.eq_3 0x75 (b :: rest) (fun _ _ h => hb (List.cons.inj h).1)
    (fun _ _ h => hb (List.cons.inj h).1)

theorem unescapeLines_eq_self {bs : List UInt8} (h : occurs lineEscape bs = false) :
    unescapeLines bs = bs := by
  fun_induction unescapeLines bs with
  | case1 rest ih => simp [occurs, lineEscape] at h
  | case2 rest ih => simp [occurs, lineEscape] at h
  | case3 b rest _ _ ih =>
      -- The search goes on octet by octet, the scan by pairs.
      simp only [occurs, Bool.or_eq_false_iff] at h
      rw [ih h.2.2]
  | case4 b rest _ _ _ ih =>
      simp only [occurs, Bool.or_eq_false_iff] at h
      rw [ih h.2]
  | case5 => rfl

theorem backslash_notMem_utf8 {cs : List Char} (h : '\\' ∉ cs) : 0x5c ∉ utf8 cs := by
  intro hmem
  obtain ⟨c, hc, hb⟩ := List.mem_flatMap.1 hmem
  have hchar : c = '\\' := Text.eq_ofNat_of_mem_utf8EncodeChar hb (by decide)
  exact h (hchar ▸ hc)

theorem padded_control {n : Nat} (h : n < 0x20) :
    Text.Hex.padded 4 n = ['0', '0', Text.Hex.digit (n / 16), Text.Hex.digit (n % 16)] := by
  have hthird : n / 16 / 16 % 16 = 0 := by omega
  have hfourth : n / 16 / 16 / 16 % 16 = 0 := by omega
  have hsecond : n / 16 % 16 = n / 16 := by omega
  simp only [Text.Hex.padded, hsecond, hthird, hfourth, List.nil_append, List.cons_append]
  rfl

theorem unescapeLines_control {n : Nat} (h : n < 0x20) (rest : List UInt8) :
    unescapeLines (utf8 ('\\' :: 'u' :: Text.Hex.padded 4 n) ++ rest) =
      utf8 ('\\' :: 'u' :: Text.Hex.padded 4 n) ++ unescapeLines rest := by
  have hdigits : 0x5c ∉ utf8 (Text.Hex.padded 4 n) := by
    refine backslash_notMem_utf8 fun hslash => ?_
    have hne : ∀ k < 16, '\\' ≠ Text.Hex.digit k := by decide
    obtain ⟨k, hk, hdigit⟩ := Text.Hex.mem_padded hslash
    exact hne k hk hdigit
  have hzero : utf8 (Text.Hex.padded 4 n) = 0x30 :: utf8 (Text.Hex.padded 4 n).tail := by
    rw [padded_control h]
    rfl
  have hcode : unescapeLines (0x5c :: 0x75 :: (utf8 (Text.Hex.padded 4 n) ++ rest)) =
      0x5c :: 0x75 :: unescapeLines (utf8 (Text.Hex.padded 4 n) ++ rest) := by
    rw [hzero]
    exact unescapeLines_code (by decide) _
  rw [unescapeLines_append hdigits] at hcode
  exact hcode

/-- A step of the scan: it passes over the escape of a character and takes that of a line end back. -/
theorem unescapeLines_escapeLines (c : Char) (rest : List UInt8) :
    unescapeLines (utf8 (escapeLines c) ++ rest) = utf8 (escapePlain c) ++ unescapeLines rest := by
  unfold escapeLines
  split
  · rename_i hline
    simp only [isLineEnd, Bool.or_eq_true, beq_iff_eq] at hline
    -- The octets of these two escapes are closed, and the scan matches them as they are.
    rcases hline with rfl | rfl
    · exact unescapeLines.eq_1 rest
    · exact unescapeLines.eq_2 rest
  · unfold escapePlain
    split
    case h_8 =>
      rename_i hslash _ _ _ _ _
      split
      · rename_i hcontrol
        exact unescapeLines_control hcontrol rest
      · exact unescapeLines_append (backslash_notMem_utf8 (by simpa using Ne.symm hslash)) rest
    all_goals exact unescapeLines_short (by decide) rest

theorem unescapeLines_flatMap (cs : List Char) (rest : List UInt8) :
    unescapeLines (utf8 (cs.flatMap escapeLines) ++ rest) =
      utf8 (cs.flatMap escapePlain) ++ unescapeLines rest := by
  induction cs with
  | nil => rfl
  | cons c cs ih =>
      simp only [List.flatMap_cons, List.flatMap_append, List.append_assoc]
      rw [unescapeLines_escapeLines, ih]

theorem utf8_writeString (escape : Char → List Char) (s : String) :
    utf8 (writeString escape s []) = 0x22 :: (utf8 (s.toList.flatMap escape) ++ [0x22]) := by
  rw [writeString, utf8, List.flatMap_cons, List.flatMap_append]
  rfl

theorem canonicalOctets_eq (s : String) :
    canonicalOctets s = utf8 (writeString escapePlain (Text.normal s) []) := by
  have hscan : canonicalOctets s =
      unescapeLines (utf8 (writeString escapeLines (Text.normal s) [])) := by
    rw [canonicalOctets, Text.octets_ofList]
    split
    · rfl
    · rename_i h
      rw [unescapeLines_eq_self (by simpa using h)]
  -- The quotes are no backslashes, so that the scan is in step at the first escape.
  rw [hscan, utf8_writeString, utf8_writeString, unescapeLines_cons (by decide),
    unescapeLines_flatMap]
  rfl

theorem canonicalString_eq (s : String) :
    canonicalString s = writeString escapePlain (Text.normal s) [] := by
  rw [canonicalString, canonicalOctets_eq, Text.Utf8.decode_utf8]

theorem writeString_append (escape : Char → List Char) (s : String) (rest : List Char) :
    writeString escape s [] ++ rest = writeString escape s rest := by
  simp [writeString]

def HasComposed : Json → Prop
  | .string s => Text.normal s = s
  | .object members => ∀ m ∈ members, Text.normal m.1 = m.1
  | _ => True

section Agreement

variable {quote quote' : String → List Char → List Char}

def SameText (quote quote' : String → List Char → List Char) (j : Json) : Prop :=
  ∀ rest, write quote j rest = write quote' j rest

theorem writeItems_congr {items : List Json} (h : ∀ j ∈ items, j.SameText quote quote')
    (rest : List Char) : writeItems quote items rest = writeItems quote' items rest := by
  induction items with
  | nil => rfl
  | cons item items ih =>
      obtain ⟨hitem, hitems⟩ := List.forall_mem_cons.1 h
      rw [writeItems, writeItems, ih hitems, hitem]

theorem writeMembers_congr {members : List (String × Json)}
    (h : ∀ m ∈ members, quote m.1 = quote' m.1 ∧ m.2.SameText quote quote') (rest : List Char) :
    writeMembers quote members rest = writeMembers quote' members rest := by
  induction members with
  | nil => rfl
  | cons m members ih =>
      obtain ⟨⟨hkey, hvalue⟩, hmembers⟩ := List.forall_mem_cons.1 h
      rw [writeMembers, writeMembers, ih hmembers, hvalue, hkey]

end Agreement

theorem sameText_of_composed {quote quote' : String → List Char → List Char}
    (hquote : ∀ s, Text.normal s = s → quote s = quote' s) {j : Json}
    (hj : j.Everywhere HasComposed) : j.SameText quote quote' := by
  induction j using Json.induction with
  | null => exact fun _ => rfl
  | bool b => cases b <;> exact fun _ => rfl
  | number literal => exact fun _ => rfl
  | string s => exact fun rest => congrFun (hquote s hj) rest
  | array items ih =>
      intro rest
      have hitems : ∀ j ∈ items, j.SameText quote quote' :=
        fun j h => ih j h ((everywhere_array.1 hj).2 j h)
      cases items with
      | nil => rfl
      | cons item items =>
          obtain ⟨hitem, hitems⟩ := List.forall_mem_cons.1 hitems
          rw [write, write, writeItems_congr hitems, hitem]
  | object members ih =>
      intro rest
      obtain ⟨hnames, hvalues⟩ := everywhere_object.1 hj
      have hmembers : ∀ m ∈ members, quote m.1 = quote' m.1 ∧ m.2.SameText quote quote' :=
        fun m h => ⟨hquote _ (hnames m h), ih m h (hvalues m h)⟩
      cases members with
      | nil => rfl
      | cons m members =>
          obtain ⟨⟨hkey, hvalue⟩, hmembers⟩ := List.forall_mem_cons.1 hmembers
          rw [write, write, writeMembers_congr hmembers, hvalue, hkey]

theorem writeCanonical_eq_writePlain {j : Json} (h : j.Everywhere HasComposed) :
    writeCanonical j = writePlain j := by
  have hquote (s : String) (hs : Text.normal s = s) :
      (fun rest => canonicalString s ++ rest) = writeString escapePlain s := by
    funext rest
    rw [canonicalString_eq, hs, writeString_append]
  rw [writeCanonical, writePlain, sameText_of_composed hquote h]

def letters : List (Char × Char) :=
  [('\x08', 'b'), ('\x0c', 'f'), ('\n', 'n'), ('\r', 'r'), ('\t', 't')]

/-- A character of a string as it stands between the quotes. -/
inductive Escape : Char → List Char → Prop
  | mark {c : Char} (mark : c = '"' ∨ c = '\\') : Escape c ['\\', c]
  | letter {c letter : Char} (known : (c, letter) ∈ letters) : Escape c ['\\', letter]
  | code {c : Char} (control : c.toNat < 0x20) (unknown : c ∉ letters.map (·.1)) :
      Escape c
        ['\\', 'u', '0', '0', Text.Hex.digit (c.toNat / 16), Text.Hex.digit (c.toNat % 16)]
  | literal {c : Char} (quote : c ≠ '"') (slash : c ≠ '\\') (plain : 0x20 ≤ c.toNat) : Escape c [c]

/-- Characters of a string, each as it stands between the quotes. -/
inductive Escaped : List Char → List Char → Prop
  | nil : Escaped [] []
  | cons {c : Char} {piece cs text : List Char} (first : Escape c piece) (rest : Escaped cs text) :
      Escaped (c :: cs) (piece ++ text)

theorem escape_escapePlain (c : Char) : Escape c (escapePlain c) := by
  unfold escapePlain
  split
  case h_1 => exact .mark (.inl rfl)
  case h_2 => exact .mark (.inr rfl)
  case h_8 hquote hslash hb hf hn hr ht =>
    split
    · rename_i hcontrol
      rw [padded_control hcontrol]
      exact .code hcontrol (by simpa [letters] using ⟨hb, hf, hn, hr, ht⟩)
    · rename_i hplain
      exact .literal hquote hslash (Nat.le_of_not_lt hplain)
  all_goals exact .letter (by decide)

theorem Escape.eq {c : Char} {piece : List Char} (h : Escape c piece) : piece = escapePlain c := by
  cases h with
  | mark mark => rcases mark with rfl | rfl <;> rfl
  | letter known =>
      simp only [letters, List.mem_cons, Prod.mk.injEq, List.not_mem_nil, or_false] at known
      rcases known with ⟨rfl, rfl⟩ | ⟨rfl, rfl⟩ | ⟨rfl, rfl⟩ | ⟨rfl, rfl⟩ | ⟨rfl, rfl⟩ <;> rfl
  | code control unknown =>
      unfold escapePlain
      split
      case h_8 => rw [if_pos control, padded_control control]
      case h_1 | h_2 => exact absurd control (by decide)
      all_goals exact absurd (by decide) unknown
  | literal quote slash plain =>
      unfold escapePlain
      split
      case h_1 => exact absurd rfl quote
      case h_2 => exact absurd rfl slash
      case h_8 => rw [if_neg (Nat.not_lt.2 plain)]
      all_goals exact absurd plain (by decide)

theorem escaped_iff {cs text : List Char} : Escaped cs text ↔ text = cs.flatMap escapePlain := by
  constructor
  · intro h
    induction h with
    | nil => rfl
    | cons first _ ih => rw [first.eq, ih, List.flatMap_cons]
  · rintro rfl
    induction cs with
    | nil => exact .nil
    | cons c cs ih => exact .cons (escape_escapePlain c) ih

theorem canonicalString_eq_quoted (s : String) :
    canonicalString s = '"' :: ((Text.normal s).toList.flatMap escapePlain ++ ['"']) := by
  rw [canonicalString_eq, writeString]

/-- A string has a canonical text, which is that of the composed string in quotes: quotes, backslashes
and control characters are escaped, and all else stands as it is, line ends included. Its octets are
those of this text, a backslash that stands before what would be the code of a line end is not taken
for an escape, and the text is read as the composed string. -/
theorem canonicalString_quotes_composed (s : String) :
    (string s).canonical = .ok (String.ofList (canonicalString s)) ∧
    (∀ text, text = canonicalString s ↔
      ∃ body, Escaped (Text.normal s).toList body ∧ text = '"' :: (body ++ ['"'])) ∧
    canonicalOctets s = Text.octets (String.ofList (canonicalString s)) ∧
    (∀ before last after, last = '8' ∨ last = '9' →
      (Text.normal s).toList = before ++ '\\' :: 'u' :: '2' :: '0' :: '2' :: last :: after →
      ∃ front back, Escaped before front ∧ Escaped after back ∧
        canonicalString s = '"' :: (front ++
          '\\' :: '\\' :: 'u' :: '2' :: '0' :: '2' :: last :: (back ++ ['"']))) ∧
    parse (String.ofList (canonicalString s)) = .ok (string (Text.normal s)) := by
  refine ⟨?_, fun text => ?_, ?_, ?_, ?_⟩
  · rw [canonical, if_neg (by simp [depth]), normalForm, Outcome.map_ok, writeCanonical, write,
      List.append_nil, canonicalString_eq, canonicalString_eq, Text.normal_normal]
  · simp only [escaped_iff, exists_eq_left, canonicalString_eq_quoted]
  · rw [Text.octets_ofList, canonicalOctets_eq, canonicalString_eq]
  · rintro before last after hlast hsplit
    refine ⟨_, _, escaped_iff.2 rfl, escaped_iff.2 rfl, ?_⟩
    rw [canonicalString_eq_quoted, hsplit]
    rcases hlast with rfl | rfl <;> simp [escapePlain]
  · rw [canonicalString_eq]
    exact parse_writePlain (j := string (Text.normal s)) trivial (Nat.zero_le _)

def escapeTalk : String := "write \\\\\\u2028\tor \\u2029"

theorem canonicalString_quotes_composed_escapeTalk :
    (Text.normal escapeTalk).toList =
      "write \\\\".toList ++ '\\' :: 'u' :: '2' :: '0' :: '2' :: '8' :: "\tor \\u2029".toList ∧
    ∃ front back, Escaped "write \\\\".toList front ∧ Escaped "\tor \\u2029".toList back ∧
      canonicalString escapeTalk = '"' :: (front ++
        '\\' :: '\\' :: 'u' :: '2' :: '0' :: '2' :: '8' :: (back ++ ['"'])) ∧
      String.ofList (canonicalString escapeTalk) = "\"write \\\\\\\\\\\\u2028\\tor \\\\u2029\"" := by
  have hsplit : (Text.normal escapeTalk).toList =
      "write \\\\".toList ++ '\\' :: 'u' :: '2' :: '0' :: '2' :: '8' :: "\tor \\u2029".toList := by
    decide +kernel
  obtain ⟨-, -, -, hliteral, -⟩ := canonicalString_quotes_composed escapeTalk
  obtain ⟨front, back, hfront, hback, htext⟩ := hliteral _ '8' _ (.inl rfl) hsplit
  exact ⟨hsplit, front, back, hfront, hback, htext, by decide +kernel⟩

end TenantQuery.Json
