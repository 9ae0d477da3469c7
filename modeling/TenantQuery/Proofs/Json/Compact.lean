import TenantQuery.Json.Raw
import TenantQuery.Proofs.Json.Text

namespace TenantQuery.Json

def Mark.Respelled (m m' : Mark) : Prop :=
  m' = m ∨ ∃ c, m = .plain c ∧ m' = .unit c.toNat

theorem Mark.Respelled.spells {c : Char} {m : Mark} (h : Respelled (.plain c) m) : m.Spells c := by
  rcases h with rfl | ⟨d, hd, rfl⟩
  · exact .inl rfl
  · cases hd
    exact .inr rfl

theorem Mark.Respelled.unit {code : Nat} {m : Mark} (h : Respelled (.unit code) m) :
    m = .unit code := by
  rcases h with rfl | ⟨d, hd, -⟩
  · rfl
  · cases hd

/-- No low unit comes of a character, so that none is joined to the unit before it. -/
theorem joinMarks_unit_cons {c : Char} {m : Mark} (h : m.Spells c) (code : Nat)
    (marks : List Mark) :
    joinMarks (.unit code :: m :: marks) = ofUnit code :: joinMarks (m :: marks) := by
  rcases h with rfl | rfl
  · rfl
  · simp [joinMarks, isLow_toNat]

theorem joinMarks_respelled {marks marks' : List Mark}
    (h : List.Forall₂ Mark.Respelled marks marks') : joinMarks marks' = joinMarks marks := by
  -- The cases are those of the reader: only two units in a row can join, and a unit is never
  -- respelled as anything else.
  fun_induction joinMarks marks generalizing marks' with
  | case1 =>
      cases h
      rfl
  | case2 c rest ih =>
      obtain ⟨m, rest', hm, hrest, rfl⟩ := List.forall₂_cons_left_iff.1 h
      rw [joinMarks_cons hm.spells, ih hrest]
  | case3 high low rest hpair ih =>
      obtain ⟨m, tail, hm, htail, rfl⟩ := List.forall₂_cons_left_iff.1 h
      obtain ⟨n, rest', hn, hrest, rfl⟩ := List.forall₂_cons_left_iff.1 htail
      rw [hm.unit, hn.unit, joinMarks, if_pos hpair, ih hrest]
  | case4 high low rest hpair ih =>
      obtain ⟨m, tail, hm, htail, rfl⟩ := List.forall₂_cons_left_iff.1 h
      have hjoin := ih htail
      obtain ⟨n, rest', hn, -, rfl⟩ := List.forall₂_cons_left_iff.1 htail
      rw [hn.unit] at hjoin
      rw [hm.unit, hn.unit, joinMarks, if_neg hpair, hjoin]
  | case5 code rest hrest ih =>
      obtain ⟨m, tail, hm, htail, rfl⟩ := List.forall₂_cons_left_iff.1 h
      have hjoin := ih htail
      rw [hm.unit]
      cases htail with
      | nil => rfl
      | @cons n n' rest rest' hn _ =>
          cases n with
          | unit low => exact absurd rfl (hrest low rest)
          | plain c => rw [joinMarks_unit_cons hn.spells, hjoin]

theorem hex_digit {c : Char} {k : Nat} (h : Text.Hex.value? c = some k) :
    c ≠ '"' ∧ c ≠ '\\' ∧ isScriptSensitive c = false := by
  refine ⟨?_, ?_, ?_⟩
  · rintro rfl
    cases h
  · rintro rfl
    cases h
  · by_contra hc
    simp only [isScriptSensitive, isLineEnd, Bool.not_eq_false, Bool.or_eq_true, beq_iff_eq] at hc
    rcases hc with ((rfl | rfl) | rfl) | rfl | rfl <;> cases h

theorem hex_digits {a b c d : Char} {code : Nat} (h : Text.Hex.number? [a, b, c, d] = some code) :
    ∀ e ∈ [a, b, c, d], e ≠ '"' ∧ e ≠ '\\' ∧ isScriptSensitive e = false := by
  have hvalue : ∀ e ∈ [a, b, c, d], ∃ k, Text.Hex.value? e = some k := by
    simp only [Text.Hex.number?, List.foldlM_cons, List.foldlM_nil, Option.bind_eq_bind,
      Option.bind_eq_some_iff, Option.map_eq_some_iff] at h
    obtain ⟨_, ⟨ka, ha, -⟩, _, ⟨kb, hb, -⟩, _, ⟨kc, hc, -⟩, _, ⟨kd, hd, -⟩, -⟩ := h
    simp [ha, hb, hc, hd]
  intro e he
  obtain ⟨k, hk⟩ := hvalue e he
  exact hex_digit hk

theorem compact_char {c : Char} (hquote : c ≠ '"') (hslash : c ≠ '\\') (rest : List Char) :
    compact true (c :: rest) =
      (if isScriptSensitive c then escapeUnit c else [c]) ++ compact true rest := by
  rw [compact.eq_4 _ _ (fun _ _ h => absurd h hslash) hquote]
  split <;> rfl

theorem compact_hex {cs : List Char}
    (h : ∀ c ∈ cs, c ≠ '"' ∧ c ≠ '\\' ∧ isScriptSensitive c = false) (rest : List Char) :
    compact true (cs ++ rest) = cs ++ compact true rest := by
  induction cs with
  | nil => rfl
  | cons c cs ih =>
      obtain ⟨⟨hquote, hslash, hscript⟩, hcs⟩ := List.forall_mem_cons.1 h
      rw [List.cons_append, compact_char hquote hslash, hscript, ih hcs]
      rfl

theorem Spelling.compact {marks : List Mark} {cs : List Char} (h : Spelling marks cs) :
    ∃ marks' cs', List.Forall₂ Mark.Respelled marks marks' ∧ Spelling marks' cs' ∧
      ∀ rest, compact true (cs ++ rest) = cs' ++ compact true rest := by
  induction h with
  | nil => exact ⟨[], [], .nil, .nil, fun _ => rfl⟩
  | @plain c marks cs quote slash control _ ih =>
      obtain ⟨marks', cs', hmarks, hspelling, hcompact⟩ := ih
      by_cases hscript : isScriptSensitive c = true
      · have hunit : c.toNat < 0x10000 := by
          simp only [isScriptSensitive, isLineEnd, Bool.or_eq_true, beq_iff_eq] at hscript
          rcases hscript with ((rfl | rfl) | rfl) | rfl | rfl <;> decide
        refine ⟨.unit c.toNat :: marks', escapeUnit c ++ cs', .cons (.inr ⟨c, rfl, rfl⟩) hmarks,
          spelling_escapeUnit hunit hspelling, fun rest => ?_⟩
        rw [List.cons_append, compact_char quote slash, if_pos hscript, hcompact, List.append_assoc]
      · refine ⟨.plain c :: marks', c :: cs', .cons (.inl rfl) hmarks,
          .plain quote slash control hspelling, fun rest => ?_⟩
        rw [List.cons_append, compact_char quote slash, if_neg hscript, hcompact]
        rfl
  | @short c d marks cs escape _ ih =>
      obtain ⟨marks', cs', hmarks, hspelling, hcompact⟩ := ih
      refine ⟨.plain d :: marks', '\\' :: c :: cs', .cons (.inl rfl) hmarks,
        .short escape hspelling, fun rest => ?_⟩
      rw [List.cons_append, List.cons_append, Json.compact, hcompact]
      rfl
  | @unit a b c d code marks cs digits _ ih =>
      obtain ⟨marks', cs', hmarks, hspelling, hcompact⟩ := ih
      refine ⟨.unit code :: marks', '\\' :: 'u' :: a :: b :: c :: d :: cs',
        .cons (.inl rfl) hmarks, .unit digits hspelling, fun rest => ?_⟩
      have hhex := compact_hex (hex_digits digits) (cs ++ rest)
      simp only [List.cons_append, List.nil_append] at hhex ⊢
      rw [Json.compact, hhex, hcompact]

theorem Quoted.compact {s : String} {cs : List Char} (h : Quoted s cs) :
    ∃ cs', Quoted s cs' ∧ ∀ rest, compact false (cs ++ rest) = cs' ++ compact false rest := by
  obtain ⟨hspelling⟩ := h
  obtain ⟨marks', cs', hmarks, hspelling', hcompact⟩ := hspelling.compact
  have hquoted := Quoted.mk hspelling'
  rw [joinMarks_respelled hmarks] at hquoted
  refine ⟨_, hquoted, fun rest => ?_⟩
  rw [List.cons_append, List.append_assoc, Json.compact, hcompact, List.cons_append,
    List.nil_append, Json.compact]
  simp

mutual

/-- The texts of a value without white space. -/
inductive Tight : Json → List Char → Prop
  | null : Tight .null ['n', 'u', 'l', 'l']
  | yes : Tight (.bool true) ['t', 'r', 'u', 'e']
  | no : Tight (.bool false) ['f', 'a', 'l', 's', 'e']
  | number {literal : String} (spelled : Literal literal.toList) :
      Tight (.number literal) literal.toList
  | string {s : String} {cs : List Char} (quoted : Quoted s cs) : Tight (.string s) cs
  | emptyArray : Tight (.array []) ['[', ']']
  | array {items : List Json} {cs : List Char} (inner : TightItems items cs) :
      Tight (.array items) ('[' :: (cs ++ [']']))
  | emptyObject : Tight (.object []) ['\x7b', '\x7d']
  | object {members : List (String × Json)} {cs : List Char} (inner : TightPairs members cs) :
      Tight (.object members) ('\x7b' :: (cs ++ ['\x7d']))

inductive TightItems : List Json → List Char → Prop
  | one {item : Json} {cs : List Char} (first : Tight item cs) : TightItems [item] cs
  | cons {item : Json} {items : List Json} {cs rest : List Char} (first : Tight item cs)
      (more : TightItems items rest) : TightItems (item :: items) (cs ++ ',' :: rest)

inductive TightPairs : List (String × Json) → List Char → Prop
  | one {key : String} {value : Json} {cs text : List Char} (name : Quoted key cs)
      (tight : Tight value text) : TightPairs [(key, value)] (cs ++ ':' :: text)
  | cons {key : String} {value : Json} {members : List (String × Json)} {cs text rest : List Char}
      (name : Quoted key cs) (tight : Tight value text) (more : TightPairs members rest) :
      TightPairs ((key, value) :: members) ((cs ++ ':' :: text) ++ ',' :: rest)

end

theorem Value.pair {key : String} {value : Json} {cs text : List Char} (h : Value value text)
    (name : Quoted key cs) : Pair (key, value) (cs ++ ':' :: text) :=
  .mk blank_nil name blank_nil h.document

mutual

theorem Tight.value {j : Json} {cs : List Char} : Tight j cs → Value j cs
  | .null => .null
  | .yes => .yes
  | .no => .no
  | .number spelled => .number spelled
  | .string quoted => .string quoted
  | .emptyArray => .emptyArray blank_nil
  | .array inner => .array inner.items
  | .emptyObject => .emptyObject blank_nil
  | .object inner => .object inner.pairs

theorem TightItems.items {items : List Json} {cs : List Char} : TightItems items cs → Items items cs
  | .one first => .one first.value.document
  | .cons first more => .cons first.value.document more.items

theorem TightPairs.pairs {members : List (String × Json)} {cs : List Char} :
    TightPairs members cs → Pairs members cs
  | .one name tight => .one (tight.value.pair name)
  | .cons name tight more => .cons (tight.value.pair name) more.pairs

end

theorem Blank.compact {cs : List Char} (h : Blank cs) (rest : List Char) :
    compact false (cs ++ rest) = compact false rest := by
  induction cs with
  | nil => rfl
  | cons c cs ih =>
      obtain ⟨hc, hcs⟩ := List.forall_mem_cons.1 h
      have hquote : c ≠ '"' := by
        rintro rfl
        cases hc
      rw [List.cons_append, compact.eq_6 _ _ hquote, if_pos hc, ih hcs]

theorem compact_token {c : Char} (hspace : isSpace c = false) (hquote : c ≠ '"')
    (rest : List Char) : compact false (c :: rest) = c :: compact false rest := by
  rw [compact.eq_6 _ _ hquote, hspace]
  rfl

def isNumeral (c : Char) : Bool :=
  isDigit c || ['-', '+', '.', 'e', 'E'].contains c

theorem Literal.numeral {cs : List Char} (h : Literal cs) : ∀ c ∈ cs, isNumeral c = true := by
  have hdigits {ds : List Char} (hds : Digits ds) : ∀ c ∈ ds, isNumeral c = true := by
    intro c hc
    rw [isNumeral, hds.2 c hc, Bool.true_or]
  obtain ⟨hsign, hwhole, hfraction, hpower⟩ := h
  simp only [List.forall_mem_append]
  refine ⟨?_, hdigits hwhole.digits, ?_, ?_⟩
  · rcases hsign with rfl | rfl <;> simp [isNumeral]
  · rcases hfraction with rfl | ⟨digits, hds, rfl⟩
    · simp
    · exact List.forall_mem_cons.2 ⟨by decide, hdigits hds⟩
  · rcases hpower with rfl | ⟨mark, sign, digits, hmark, hsign, hds, rfl⟩
    · simp
    · refine List.forall_mem_cons.2 ⟨?_, List.forall_mem_append.2 ⟨?_, hdigits hds⟩⟩
      · rcases hmark with rfl | rfl <;> decide
      · rcases hsign with rfl | rfl | rfl <;> simp [isNumeral]

/-- A character of a number is none that the reader of values tells by. -/
theorem isNumeral_ne {c d : Char} (hc : isNumeral c = true) (hd : isNumeral d = false) : c ≠ d := by
  rintro rfl
  rw [hc] at hd
  cases hd

theorem isSpace_of_isNumeral {c : Char} (h : isNumeral c = true) : isSpace c = false := by
  have hne := fun d => isNumeral_ne (d := d) h
  simp [isSpace, hne ' ' (by decide), hne '\t' (by decide), hne '\n' (by decide),
    hne '\r' (by decide)]

theorem Literal.compact {cs : List Char} (h : Literal cs) (rest : List Char) :
    compact false (cs ++ rest) = cs ++ compact false rest := by
  have hcs := h.numeral
  clear h
  induction cs with
  | nil => rfl
  | cons c cs ih =>
      obtain ⟨hc, hcs⟩ := List.forall_mem_cons.1 hcs
      rw [List.cons_append, compact_token (isSpace_of_isNumeral hc) (isNumeral_ne hc (by decide)),
        ih hcs, List.cons_append]

mutual

theorem Value.compact {j : Json} {cs : List Char} : Value j cs →
    ∃ cs', Tight j cs' ∧ ∀ rest, compact false (cs ++ rest) = cs' ++ compact false rest
  | .null => ⟨_, .null, fun _ => rfl⟩
  | .yes => ⟨_, .yes, fun _ => rfl⟩
  | .no => ⟨_, .no, fun _ => rfl⟩
  | .number spelled => ⟨_, .number spelled, spelled.compact⟩
  | .string quoted => by
      obtain ⟨cs', hquoted, hcompact⟩ := quoted.compact
      exact ⟨cs', .string hquoted, hcompact⟩
  | .emptyArray blank => by
      refine ⟨_, .emptyArray, fun rest => ?_⟩
      rw [List.cons_append, List.append_assoc, compact_token (by decide) (by decide),
        blank.compact, List.cons_append, compact_token (by decide) (by decide)]
      rfl
  | .array inner => by
      obtain ⟨cs', hinner, hcompact⟩ := inner.compact
      refine ⟨_, .array hinner, fun rest => ?_⟩
      rw [List.cons_append, List.append_assoc, compact_token (by decide) (by decide), hcompact,
        List.cons_append, compact_token (by decide) (by decide)]
      simp
  | .emptyObject blank => by
      refine ⟨_, .emptyObject, fun rest => ?_⟩
      rw [List.cons_append, List.append_assoc, compact_token (by decide) (by decide),
        blank.compact, List.cons_append, compact_token (by decide) (by decide)]
      rfl
  | .object inner => by
      obtain ⟨cs', hinner, hcompact⟩ := inner.compact
      refine ⟨_, .object hinner, fun rest => ?_⟩
      rw [List.cons_append, List.append_assoc, compact_token (by decide) (by decide), hcompact,
        List.cons_append, compact_token (by decide) (by decide)]
      simp

theorem Document.compact {j : Json} {cs : List Char} : Document j cs →
    ∃ cs', Tight j cs' ∧ ∀ rest, compact false (cs ++ rest) = cs' ++ compact false rest
  | .mk blank value blank' => by
      obtain ⟨cs', htight, hcompact⟩ := value.compact
      refine ⟨cs', htight, fun rest => ?_⟩
      rw [List.append_assoc, blank.compact, List.append_assoc, hcompact, blank'.compact]

theorem Items.compact {items : List Json} {cs : List Char} : Items items cs →
    ∃ cs', TightItems items cs' ∧ ∀ rest, compact false (cs ++ rest) = cs' ++ compact false rest
  | .one first => by
      obtain ⟨cs', htight, hcompact⟩ := first.compact
      exact ⟨cs', .one htight, hcompact⟩
  | .cons first more => by
      obtain ⟨cs', htight, hcompact⟩ := first.compact
      obtain ⟨more', hmore, hrest⟩ := more.compact
      refine ⟨_, .cons htight hmore, fun rest => ?_⟩
      rw [List.append_assoc, hcompact, List.cons_append, compact_token (by decide) (by decide),
        hrest]
      simp

theorem Pair.compact {m : String × Json} {cs : List Char} : Pair m cs →
    ∃ name text, Quoted m.1 name ∧ Tight m.2 text ∧
      ∀ rest, compact false (cs ++ rest) = (name ++ ':' :: text) ++ compact false rest
  | .mk blank name blank' document => by
      obtain ⟨name', hname, hkey⟩ := name.compact
      obtain ⟨text', htext, hcompact⟩ := document.compact
      refine ⟨name', text', hname, htext, fun rest => ?_⟩
      rw [List.append_assoc, blank.compact, List.append_assoc, hkey, List.append_assoc,
        blank'.compact, List.cons_append, compact_token (by decide) (by decide), hcompact]
      simp

theorem Pairs.compact {members : List (String × Json)} {cs : List Char} : Pairs members cs →
    ∃ cs', TightPairs members cs' ∧ ∀ rest, compact false (cs ++ rest) = cs' ++ compact false rest
  | .one first => by
      obtain ⟨name, text, hname, htext, hcompact⟩ := first.compact
      exact ⟨_, .one hname htext, hcompact⟩
  | .cons first more => by
      obtain ⟨name, text, hname, htext, hcompact⟩ := first.compact
      obtain ⟨more', hmore, hrest⟩ := more.compact
      refine ⟨_, .cons hname htext hmore, fun rest => ?_⟩
      rw [List.append_assoc, hcompact, List.cons_append, compact_token (by decide) (by decide),
        hrest]
      simp

end

theorem Document.tight {j : Json} {cs : List Char} (h : Document j cs) :
    Tight j (Json.compact false cs) := by
  obtain ⟨cs', htight, hcompact⟩ := h.compact
  have hall := hcompact []
  rw [List.append_nil, Json.compact, List.append_nil] at hall
  rwa [hall]

/-- A scan for the mark inside `least` brackets or more passes over the text. -/
def PassedOver (mark : Char) (least : Nat) (cs : List Char) : Prop :=
  ∀ depth, least ≤ depth → ∀ piece rest,
    cut mark ⟨false, depth⟩ piece (cs ++ rest) = cut mark ⟨false, depth⟩ (cs.reverse ++ piece) rest

def isMark (c : Char) : Bool :=
  c == ',' || c == ':'

theorem isMark_ne {mark c : Char} (hmark : isMark mark = true) (hc : isMark c = false) :
    c ≠ mark := by
  rintro rfl
  rw [hmark] at hc
  cases hc

section Cutting

variable {mark : Char} {least : Nat} {cs ds : List Char}

theorem PassedOver.nil : PassedOver mark least [] :=
  fun _ _ _ _ => rfl

theorem PassedOver.append (hcs : PassedOver mark least cs) (hds : PassedOver mark least ds) :
    PassedOver mark least (cs ++ ds) := by
  intro depth hdepth piece rest
  rw [List.append_assoc, hcs depth hdepth, hds depth hdepth, List.reverse_append, List.append_assoc]

theorem PassedOver.cons {c : Char} (hc : c ∉ ['"', '[', ']', '\x7b', '\x7d'])
    (hcut : c = mark → 0 < least) (hcs : PassedOver mark least cs) :
    PassedOver mark least (c :: cs) := by
  intro depth hdepth piece rest
  have hcut : ¬ (depth = 0 ∧ c = mark) := by
    rintro ⟨rfl, heq⟩
    have := hcut heq
    omega
  simp only [List.mem_cons, List.not_mem_nil, or_false, not_or] at hc
  obtain ⟨hquote, hopen, hclose, hopen', hclose'⟩ := hc
  have hstring : (c == '"') = false := by simpa using hquote
  rw [List.cons_append, cut, if_neg hcut, if_neg (by simp [hopen, hopen']),
    if_neg (by simp [hclose, hclose']), hstring, hcs depth hdepth]
  simp

theorem PassedOver.chars (hmark : isMark mark = true)
    (h : ∀ c ∈ cs, c ∉ ['"', '[', ']', '\x7b', '\x7d'] ∧ isMark c = false) :
    PassedOver mark least cs := by
  induction cs with
  | nil => exact .nil
  | cons c cs ih =>
      obtain ⟨⟨hc, hne⟩, hcs⟩ := List.forall_mem_cons.1 h
      exact .cons hc (fun heq => absurd heq (isMark_ne hmark hne)) (ih hcs)

theorem PassedOver.brackets (hmark : isMark mark = true) {opening closing : Char}
    (h : (opening = '[' ∧ closing = ']') ∨ (opening = '\x7b' ∧ closing = '\x7d'))
    (hcs : PassedOver mark 1 cs) : PassedOver mark least (opening :: (cs ++ [closing])) := by
  intro depth hdepth piece rest
  -- Inside the brackets the scan stands one deeper, so that no mark there is at depth zero.
  have hopen : isMark opening = false ∧ (opening = '[' ∨ opening = '\x7b') := by
    rcases h with ⟨rfl, -⟩ | ⟨rfl, -⟩ <;> decide
  have hclose : closing ≠ '[' ∧ closing ≠ '\x7b' ∧ (closing = ']' ∨ closing = '\x7d') := by
    rcases h with ⟨-, rfl⟩ | ⟨-, rfl⟩ <;> decide
  rw [List.cons_append, List.append_assoc, cut, if_neg (by simp [isMark_ne hmark hopen.1]),
    if_pos hopen.2, hcs (depth + 1) (by omega), List.cons_append, cut, if_neg (by simp),
    if_neg (by simp [hclose]), if_pos hclose.2.2]
  simp

theorem Spelling.cut {marks : List Mark} (h : Spelling marks cs) (mark : Char) (depth : Nat)
    (piece rest : List Char) :
    cut mark ⟨true, depth⟩ piece (cs ++ rest) = cut mark ⟨true, depth⟩ (cs.reverse ++ piece) rest := by
  have hchar (c : Char) (hquote : c ≠ '"') (hslash : c ≠ '\\') (piece rest : List Char) :
      Json.cut mark ⟨true, depth⟩ piece (c :: rest) =
        Json.cut mark ⟨true, depth⟩ (c :: piece) rest := by
    have hstring : (c != '"') = true := by simpa using hquote
    rw [cut.eq_3 _ _ _ _ _ (fun _ _ h => absurd h hslash), hstring]
  induction h generalizing piece with
  | nil => rfl
  | plain quote slash _ _ ih =>
      rw [List.cons_append, hchar _ quote slash, ih]
      simp
  | short _ _ ih =>
      rw [List.cons_append, List.cons_append, Json.cut, ih]
      simp
  | @unit a b c d code marks cs digits _ ih =>
      have hhex := hex_digits digits
      simp only [List.forall_mem_cons, List.not_mem_nil, false_implies, implies_true,
        and_true] at hhex
      obtain ⟨ha, hb, hc, hd⟩ := hhex
      simp only [List.cons_append]
      rw [Json.cut, hchar a ha.1 ha.2.1, hchar b hb.1 hb.2.1, hchar c hc.1 hc.2.1,
        hchar d hd.1 hd.2.1, ih]
      simp

theorem Quoted.passedOver {s : String} (h : Quoted s cs) (hmark : isMark mark = true) :
    PassedOver mark least cs := by
  obtain ⟨hspelling⟩ := h
  intro depth hdepth piece rest
  have hne : '"' ≠ mark := isMark_ne hmark (by decide)
  rw [List.cons_append, List.append_assoc, Json.cut, if_neg (by simp [hne]), if_neg (by decide),
    if_neg (by decide), show ('"' == '"') = true from rfl, hspelling.cut, List.cons_append,
    Json.cut.eq_3 _ _ _ _ _ (fun _ _ h => absurd h (by decide))]
  simp

theorem Literal.passedOver (h : Literal cs) (hmark : isMark mark = true) :
    PassedOver mark least cs := by
  refine .chars hmark fun c hc => ⟨?_, ?_⟩
  · intro hmem
    have hnumeral : ∀ d ∈ ['"', '[', ']', '\x7b', '\x7d'], isNumeral d = false := by
      simp [isNumeral, isDigit]
    exact isNumeral_ne (h.numeral c hc) (hnumeral c hmem) rfl
  · have hne := fun d => isNumeral_ne (d := d) (h.numeral c hc)
    simp [isMark, hne ',' (by decide), hne ':' (by decide)]

end Cutting

mutual

theorem Tight.passedOver {mark : Char} (hmark : isMark mark = true) {j : Json} {cs : List Char} :
    Tight j cs → ∀ least, PassedOver mark least cs
  | .null, _ => .chars hmark (by simp [isMark])
  | .yes, _ => .chars hmark (by simp [isMark])
  | .no, _ => .chars hmark (by simp [isMark])
  | .number spelled, _ => spelled.passedOver hmark
  | .string quoted, _ => quoted.passedOver hmark
  | .emptyArray, _ => .brackets hmark (.inl ⟨rfl, rfl⟩) .nil
  | .array inner, _ => .brackets hmark (.inl ⟨rfl, rfl⟩) (inner.passedOver hmark)
  | .emptyObject, _ => .brackets hmark (.inr ⟨rfl, rfl⟩) .nil
  | .object inner, _ => .brackets hmark (.inr ⟨rfl, rfl⟩) (inner.passedOver hmark)

theorem TightItems.passedOver {mark : Char} (hmark : isMark mark = true) {items : List Json}
    {cs : List Char} : TightItems items cs → PassedOver mark 1 cs
  | .one first => first.passedOver hmark 1
  | .cons first more =>
      (first.passedOver hmark 1).append
        (.cons (by decide) (fun _ => Nat.one_pos) (more.passedOver hmark))

theorem TightPairs.passedOver {mark : Char} (hmark : isMark mark = true)
    {members : List (String × Json)} {cs : List Char} : TightPairs members cs → PassedOver mark 1 cs
  | .one name tight =>
      (name.passedOver hmark).append
        (.cons (by decide) (fun _ => Nat.one_pos) (tight.passedOver hmark 1))
  | .cons name tight more =>
      ((name.passedOver hmark).append
        (.cons (by decide) (fun _ => Nat.one_pos) (tight.passedOver hmark 1))).append
        (.cons (by decide) (fun _ => Nat.one_pos) (more.passedOver hmark))

end

section Pieces

variable {cs text : List Char}

/-- Outside of brackets a text that is passed over is one piece, up to the mark after it. -/
theorem PassedOver.cut_mark {mark : Char} (h : PassedOver mark 0 cs) (rest : List Char) :
    cut mark ⟨false, 0⟩ [] (cs ++ mark :: rest) = cs :: cut mark ⟨false, 0⟩ [] rest := by
  rw [h 0 le_rfl, cut, if_pos ⟨rfl, rfl⟩, List.append_nil, List.reverse_reverse]

theorem PassedOver.cut_last {mark : Char} (h : PassedOver mark 0 cs) :
    cut mark ⟨false, 0⟩ [] cs = [cs] := by
  have hcut := h 0 le_rfl [] []
  rwa [List.append_nil, List.append_nil, cut, List.reverse_reverse] at hcut

theorem rawMember_pair {key : String} {j : Json} (name : Quoted key cs) (tight : Tight j text) :
    rawMember (cs ++ ':' :: text) = some (key, text) := by
  have hname : PassedOver ':' 0 cs := name.passedOver (by decide)
  have htext : PassedOver ':' 0 text := tight.passedOver (by decide) 0
  have hkey : parse (String.ofList cs) = .ok (.string key) := by
    rw [parse_eq_ok, String.toList_ofList]
    exact ⟨(Value.string name).document, Nat.zero_le _⟩
  simp only [rawMember, hname.cut_mark, htext.cut_last, hkey, List.intercalate_singleton]

theorem passedOver_pair {key : String} {j : Json} (name : Quoted key cs) (tight : Tight j text) :
    PassedOver ',' 0 (cs ++ ':' :: text) :=
  (name.passedOver (by decide)).append
    (.cons (by decide) (fun heq => absurd heq (by decide)) (tight.passedOver (by decide) 0))

end Pieces

/-- The name of a member with a text of its value. -/
def Texted (m : String × Json) (text : String × List Char) : Prop :=
  text.1 = m.1 ∧ Tight m.2 text.2

theorem TightPairs.texts {members : List (String × Json)} {cs : List Char} :
    TightPairs members cs →
      List.Forall₂ Texted members ((cut ',' ⟨false, 0⟩ [] cs).filterMap rawMember)
  | .one name tight => by
      rw [(passedOver_pair name tight).cut_last,
        List.filterMap_cons_some (rawMember_pair name tight)]
      exact .cons ⟨rfl, tight⟩ .nil
  | .cons name tight more => by
      rw [(passedOver_pair name tight).cut_mark,
        List.filterMap_cons_some (rawMember_pair name tight)]
      exact .cons ⟨rfl, tight⟩ more.texts

/-- The members of an object; other values have none. -/
def ownMembers : Json → List (String × Json)
  | .object members => members
  | _ => []

theorem Literal.rawMembers_eq {cs : List Char} (h : Literal cs) : rawMembers cs = [] := by
  have hnumeral := h.numeral
  unfold rawMembers
  split
  · exact absurd rfl (isNumeral_ne (d := '\x7b') (hnumeral _ List.mem_cons_self) (by decide))
  · rfl

/-- The members of an object are taken from its text in order, each with a text of its value. -/
theorem Tight.texts {j : Json} {cs : List Char} (h : Tight j cs) :
    List.Forall₂ Texted j.ownMembers (rawMembers cs) := by
  cases h with
  | null | yes | no | emptyArray | array _ | emptyObject => exact .nil
  | number spelled =>
      rw [spelled.rawMembers_eq]
      exact .nil
  | string quoted =>
      obtain ⟨-⟩ := quoted
      exact .nil
  | object inner =>
      simp only [rawMembers, List.dropLast_concat]
      exact inner.texts

/-- The name of a member with any text of its value. -/
def Spelt (m : String × Json) (text : String × String) : Prop :=
  text.1 = m.1 ∧ Document m.2 text.2.toList

theorem pair_text {m : String × Json} {text : String × String} (h : Spelt m text) :
    Pair m ((string text.1).encode ++ ":" ++ text.2).toList := by
  obtain ⟨hname, hdocument⟩ := h
  obtain ⟨cs, hquoted, hwrite⟩ := quoted_writeString legible_escapeSafe m.1 []
  have hkey : (string text.1).encode.toList = cs := by
    rw [encode, String.toList_ofList, write, hname, hwrite, List.append_nil]
  have hpair := Pair.mk blank_nil hquoted blank_nil hdocument
  rw [String.toList_append, String.toList_append, hkey]
  simpa using hpair

theorem pairs_texts {m : String × Json} {members : List (String × Json)} {text : String × String}
    {texts : List (String × String)} (h : List.Forall₂ Spelt (m :: members) (text :: texts)) :
    Pairs (m :: members) (",".intercalate ((text :: texts).map fun (key, text) =>
      encode (.string key) ++ ":" ++ text)).toList := by
  induction members generalizing m text texts with
  | nil =>
      obtain ⟨hfirst, hrest⟩ := List.forall₂_cons.1 h
      cases hrest
      rw [List.map_cons, List.map_nil, String.intercalate_singleton]
      exact .one (pair_text hfirst)
  | cons n members ih =>
      obtain ⟨hfirst, hrest⟩ := List.forall₂_cons.1 h
      cases texts with
      | nil => cases hrest
      | cons next texts =>
          have hmore := ih hrest
          rw [List.map_cons] at hmore ⊢
          rw [List.map_cons, String.intercalate_cons_cons, String.toList_append,
            String.toList_append, List.append_assoc]
          exact .cons (pair_text hfirst) hmore

theorem document_writeTexts {members : List (String × Json)} {texts : List (String × String)}
    (h : List.Forall₂ Spelt members texts) : Document (.object members) (writeTexts texts).toList := by
  cases h with
  | nil => exact (Value.emptyObject blank_nil).document
  | cons hfirst hrest =>
      have hvalue := Value.object (pairs_texts (.cons hfirst hrest))
      rw [writeTexts, String.toList_append, String.toList_append]
      exact hvalue.document

end TenantQuery.Json
