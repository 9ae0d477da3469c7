import TenantQuery.Json.Writer
import TenantQuery.Proofs.Json.Grammar

namespace TenantQuery.Json

/-- A mark that stands for the character. -/
def Mark.Spells (m : Mark) (c : Char) : Prop :=
  m = .plain c ∨ m = .unit c.toNat

theorem isHigh_toNat (c : Char) : isHigh c.toNat = false := by
  have h := Text.toNat_range c
  simp only [isHigh, Bool.and_eq_false_iff, decide_eq_false_iff_not]
  omega

theorem isLow_toNat (c : Char) : isLow c.toNat = false := by
  have h := Text.toNat_range c
  simp only [isLow, Bool.and_eq_false_iff, decide_eq_false_iff_not]
  omega

theorem ofUnit_toNat (c : Char) : ofUnit c.toNat = c := by
  simp [ofUnit, isHigh_toNat, isLow_toNat]

theorem joinMarks_cons {m : Mark} {c : Char} (h : m.Spells c) (marks : List Mark) :
    joinMarks (m :: marks) = c :: joinMarks marks := by
  rcases h with rfl | rfl
  · rfl
  · cases marks with
    | nil => simp [joinMarks, ofUnit_toNat]
    | cons n marks =>
        cases n with
        | plain d => simp [joinMarks, ofUnit_toNat]
        | unit low => simp [joinMarks, ofUnit_toNat, isHigh_toNat]

/-- A way to write characters in strings. -/
def Legible (escape : Char → List Char) : Prop :=
  ∀ c, ∃ m : Mark, m.Spells c ∧
    ∀ marks cs, Spelling marks cs → Spelling (m :: marks) (escape c ++ cs)

theorem spelling_escapeUnit {c : Char} (hc : c.toNat < 0x10000) {marks : List Mark}
    {cs : List Char} (h : Spelling marks cs) : Spelling (.unit c.toNat :: marks) (escapeUnit c ++ cs) := by
  have hnumber := Text.Hex.number?_map_padded id Text.Hex.value?_digit 4 c.toNat
  have hmod : c.toNat % 16 ^ 4 = c.toNat := Nat.mod_eq_of_lt hc
  rw [List.map_id, hmod] at hnumber
  simp only [Text.Hex.padded, List.nil_append, List.cons_append] at hnumber
  simp only [escapeUnit, Text.Hex.padded, List.nil_append, List.cons_append]
  exact .unit hnumber h

theorem legible_escapePlain : Legible escapePlain := by
  intro c
  unfold escapePlain
  split
  case h_8 =>
    rename_i hquote hslash _ _ _ _ _
    split
    · rename_i hc
      exact ⟨.unit c.toNat, .inr rfl, fun _ _ h => spelling_escapeUnit (Nat.lt_trans hc (by decide)) h⟩
    · rename_i hc
      exact ⟨.plain c, .inl rfl, fun _ _ h => .plain hquote hslash hc h⟩
  all_goals
    exact ⟨.plain _, .inl rfl, fun _ _ h => .short rfl h⟩

theorem legible_escapeSafe : Legible escapeSafe := by
  intro c
  unfold escapeSafe
  split
  · rename_i hc
    have hunit : c.toNat < 0x10000 := by
      simp only [isScriptSensitive, isLineEnd, Bool.or_eq_true, beq_iff_eq] at hc
      rcases hc with ((rfl | rfl) | rfl) | rfl | rfl <;> decide
    exact ⟨.unit c.toNat, .inr rfl, fun _ _ h => spelling_escapeUnit hunit h⟩
  · exact legible_escapePlain c

variable {escape : Char → List Char}

theorem quoted_writeString (hescape : Legible escape) (s : String) (rest : List Char) :
    ∃ cs, Quoted s cs ∧ writeString escape s rest = cs ++ rest := by
  have hmarks (cs : List Char) : ∃ marks, joinMarks marks = cs ∧
      Spelling marks (cs.flatMap escape) := by
    induction cs with
    | nil => exact ⟨[], rfl, .nil⟩
    | cons c cs ih =>
        obtain ⟨marks, hjoin, hspelling⟩ := ih
        obtain ⟨m, hm, hstep⟩ := hescape c
        exact ⟨m :: marks, by rw [joinMarks_cons hm, hjoin], hstep _ _ hspelling⟩
  obtain ⟨marks, hjoin, hspelling⟩ := hmarks s.toList
  have hquoted := Quoted.mk hspelling
  rw [hjoin, String.ofList_toList] at hquoted
  exact ⟨_, hquoted, by simp [writeString]⟩

mutual

/-- Induction over values: containers after what they hold. -/
@[elab_as_elim]
theorem induction {P : Json → Prop} (null : P .null) (bool : ∀ b, P (.bool b))
    (number : ∀ literal, P (.number literal)) (string : ∀ s, P (.string s))
    (array : ∀ items, (∀ j ∈ items, P j) → P (.array items))
    (object : ∀ members, (∀ m ∈ members, P m.2) → P (.object members)) : (j : Json) → P j
  | .null => null
  | .bool b => bool b
  | .number literal => number literal
  | .string s => string s
  | .array items => array items (induction_items null bool number string array object items)
  | .object members => object members (induction_members null bool number string array object members)

theorem induction_items {P : Json → Prop} (null : P .null) (bool : ∀ b, P (.bool b))
    (number : ∀ literal, P (.number literal)) (string : ∀ s, P (.string s))
    (array : ∀ items, (∀ j ∈ items, P j) → P (.array items))
    (object : ∀ members, (∀ m ∈ members, P m.2) → P (.object members)) :
    (items : List Json) → ∀ j ∈ items, P j
  | [] => by simp
  | item :: items => by
      have hitem := induction null bool number string array object item
      have hitems := induction_items null bool number string array object items
      simpa using ⟨hitem, hitems⟩

theorem induction_members {P : Json → Prop} (null : P .null) (bool : ∀ b, P (.bool b))
    (number : ∀ literal, P (.number literal)) (string : ∀ s, P (.string s))
    (array : ∀ items, (∀ j ∈ items, P j) → P (.array items))
    (object : ∀ members, (∀ m ∈ members, P m.2) → P (.object members)) :
    (members : List (String × Json)) → ∀ m ∈ members, P m.2
  | [] => by simp
  | (key, value) :: members => by
      have hvalue := induction null bool number string array object value
      have hmembers := induction_members null bool number string array object members
      intro m hm
      rcases List.mem_cons.1 hm with rfl | hm
      · exact hvalue
      · exact hmembers m hm

end

mutual

/-- A property of a value and of all values inside it. -/
def Everywhere (P : Json → Prop) : Json → Prop
  | .array items => P (.array items) ∧ EverywhereItems P items
  | .object members => P (.object members) ∧ EverywhereMembers P members
  | j => P j

def EverywhereItems (P : Json → Prop) : List Json → Prop
  | [] => True
  | item :: items => Everywhere P item ∧ EverywhereItems P items

def EverywhereMembers (P : Json → Prop) : List (String × Json) → Prop
  | [] => True
  | (_, value) :: members => Everywhere P value ∧ EverywhereMembers P members

end

theorem everywhereItems_iff {P : Json → Prop} {items : List Json} :
    EverywhereItems P items ↔ ∀ j ∈ items, j.Everywhere P := by
  induction items with
  | nil => simp [EverywhereItems]
  | cons item items ih => simp [EverywhereItems, ih]

theorem everywhereMembers_iff {P : Json → Prop} {members : List (String × Json)} :
    EverywhereMembers P members ↔ ∀ m ∈ members, m.2.Everywhere P := by
  induction members with
  | nil => simp [EverywhereMembers]
  | cons m members ih => simp [EverywhereMembers, ih]

theorem everywhere_array {P : Json → Prop} {items : List Json} :
    (array items).Everywhere P ↔ P (.array items) ∧ ∀ j ∈ items, j.Everywhere P := by
  rw [Everywhere, everywhereItems_iff]

theorem everywhere_object {P : Json → Prop} {members : List (String × Json)} :
    (object members).Everywhere P ↔ P (.object members) ∧ ∀ m ∈ members, m.2.Everywhere P := by
  rw [Everywhere, everywhereMembers_iff]

/-- Numbers are spelled as numbers. -/
def HasLiterals : Json → Prop
  | .number literal => IsLiteral literal
  | _ => True

/-- Every number in a value is spelled as one. -/
abbrev Spelled (j : Json) : Prop :=
  j.Everywhere HasLiterals

mutual

/-- A value that a text is derived for has its numbers spelled as numbers. -/
theorem Value.spelled {j : Json} {cs : List Char} : Value j cs → j.Spelled
  | .null | .yes | .no | .string _ => trivial
  | .number spelled => by simpa [Everywhere, HasLiterals] using spelled.isLiteral
  | .emptyArray _ => ⟨trivial, trivial⟩
  | .array inner => ⟨trivial, inner.spelled⟩
  | .emptyObject _ => ⟨trivial, trivial⟩
  | .object inner => ⟨trivial, inner.spelled⟩

theorem Document.spelled {j : Json} {cs : List Char} : Document j cs → j.Spelled
  | .mk _ value _ => value.spelled

theorem Items.spelled {items : List Json} {cs : List Char} :
    Items items cs → EverywhereItems HasLiterals items
  | .one first => ⟨first.spelled, trivial⟩
  | .cons first more => ⟨first.spelled, more.spelled⟩

theorem Pair.spelled {m : String × Json} {cs : List Char} : Pair m cs → m.2.Spelled
  | .mk _ _ _ document => document.spelled

theorem Pairs.spelled {members : List (String × Json)} {cs : List Char} :
    Pairs members cs → EverywhereMembers HasLiterals members
  | .one first => ⟨first.spelled, trivial⟩
  | .cons first more => ⟨first.spelled, more.spelled⟩

end

/-- What is written for a value is a text of the value. -/
def HasText (escape : Char → List Char) (j : Json) : Prop :=
  ∀ rest, ∃ body, Value j body ∧ write (writeString escape) j rest = body ++ rest

theorem items_write {item : Json} {items : List Json} (h : ∀ j ∈ item :: items, j.HasText escape)
    (rest : List Char) : ∃ body, Items (item :: items) body ∧
      write (writeString escape) item (writeItems (writeString escape) items rest) =
        body ++ ']' :: rest := by
  induction items generalizing item with
  | nil =>
      obtain ⟨body, hvalue, hwrite⟩ := h item (by simp) (']' :: rest)
      exact ⟨body, .one hvalue.document, hwrite⟩
  | cons next items ih =>
      obtain ⟨hitem, hitems⟩ := List.forall_mem_cons.1 h
      obtain ⟨more, hmore, hrest⟩ := ih hitems
      obtain ⟨body, hvalue, hwrite⟩ := hitem (',' :: (more ++ ']' :: rest))
      refine ⟨_, .cons hvalue.document hmore, ?_⟩
      rw [writeItems, hrest, hwrite, List.append_assoc, List.cons_append]

theorem member_write (hescape : Legible escape) {m : String × Json} (h : m.2.HasText escape)
    (rest : List Char) : ∃ body, Pair m body ∧
      writeString escape m.1 (':' :: write (writeString escape) m.2 rest) = body ++ rest := by
  obtain ⟨body, hvalue, hwrite⟩ := h rest
  obtain ⟨name, hname, hkey⟩ := quoted_writeString hescape m.1 (':' :: (body ++ rest))
  refine ⟨_, .mk blank_nil hname blank_nil hvalue.document, ?_⟩
  rw [hwrite, hkey]
  simp

theorem members_write (hescape : Legible escape) {m : String × Json}
    {members : List (String × Json)} (h : ∀ n ∈ m :: members, n.2.HasText escape)
    (rest : List Char) : ∃ body, Pairs (m :: members) body ∧
      writeString escape m.1 (':' :: write (writeString escape) m.2
        (writeMembers (writeString escape) members rest)) = body ++ '\x7d' :: rest := by
  induction members generalizing m with
  | nil =>
      obtain ⟨body, hmember, hwrite⟩ := member_write hescape (h m (by simp)) ('\x7d' :: rest)
      exact ⟨body, .one hmember, hwrite⟩
  | cons next members ih =>
      obtain ⟨hm, hmembers⟩ := List.forall_mem_cons.1 h
      obtain ⟨more, hmore, hrest⟩ := ih hmembers
      obtain ⟨body, hmember, hwrite⟩ := member_write hescape hm (',' :: (more ++ '\x7d' :: rest))
      refine ⟨_, .cons hmember hmore, ?_⟩
      rw [writeMembers, hrest, hwrite, List.append_assoc, List.cons_append]

theorem Spelled.hasText (hescape : Legible escape) {j : Json} (hj : j.Spelled) : j.HasText escape := by
  induction j using Json.induction with
  | null => exact fun rest => ⟨_, .null, rfl⟩
  | bool b =>
      cases b with
      | true => exact fun rest => ⟨_, .yes, rfl⟩
      | false => exact fun rest => ⟨_, .no, rfl⟩
  | number literal => exact fun rest => ⟨_, .number (.of_isLiteral hj), rfl⟩
  | string s =>
      intro rest
      obtain ⟨cs, hquoted, hwrite⟩ := quoted_writeString hescape s rest
      exact ⟨cs, .string hquoted, hwrite⟩
  | array items ih =>
      intro rest
      have hitems : ∀ j ∈ items, j.HasText escape := fun j h => ih j h ((everywhere_array.1 hj).2 j h)
      cases items with
      | nil => exact ⟨_, .emptyArray blank_nil, rfl⟩
      | cons item items =>
          obtain ⟨body, hbody, hwrite⟩ := items_write hitems rest
          exact ⟨_, .array hbody, by simp [write, hwrite]⟩
  | object members ih =>
      intro rest
      have hmembers : ∀ m ∈ members, m.2.HasText escape :=
        fun m h => ih m h ((everywhere_object.1 hj).2 m h)
      cases members with
      | nil => exact ⟨_, .emptyObject blank_nil, rfl⟩
      | cons m members =>
          obtain ⟨body, hbody, hwrite⟩ := members_write hescape hmembers rest
          exact ⟨_, .object hbody, by simp [write, hwrite]⟩

theorem document_writePlain {j : Json} (hj : j.Spelled) : Document j (writePlain j).toList := by
  obtain ⟨body, hvalue, hwrite⟩ := hj.hasText legible_escapePlain []
  rw [writePlain, String.toList_ofList, hwrite, List.append_nil]
  exact hvalue.document

/-- The text of a value is read as the value. -/
theorem parse_writePlain {j : Json} (hj : j.Spelled) (hdepth : j.depth ≤ maxDepth) :
    parse (writePlain j) = .ok j :=
  parse_eq_ok.2 ⟨document_writePlain hj, hdepth⟩

theorem document_encode {j : Json} (hj : j.Spelled) : Document j j.encode.toList := by
  obtain ⟨body, hvalue, hwrite⟩ := hj.hasText legible_escapeSafe []
  rw [encode, String.toList_ofList, hwrite, List.append_nil]
  exact hvalue.document

/-- Text that is safe in a script is read as the value too, unless this nests too deeply. -/
theorem parse_encode_eq_ok {j k : Json} (hj : j.Spelled) :
    parse j.encode = .ok k ↔ k = j ∧ j.depth ≤ maxDepth := by
  have hdocument := document_encode hj
  rw [parse_eq_ok]
  constructor
  · rintro ⟨hk, hdepth⟩
    cases hdocument.unique hk
    exact ⟨rfl, hdepth⟩
  · rintro ⟨rfl, hdepth⟩
    exact ⟨hdocument, hdepth⟩

/-- Values are told apart by their texts. -/
theorem eq_of_writePlain_eq {j k : Json} (hj : j.Spelled) (hk : k.Spelled)
    (h : writePlain j = writePlain k) : j = k :=
  (document_writePlain hj).unique (h ▸ document_writePlain hk)

end TenantQuery.Json
