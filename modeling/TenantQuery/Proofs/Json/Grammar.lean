import TenantQuery.Proofs.Json.Literal
import TenantQuery.Proofs.Text

namespace TenantQuery.Json

def Blank (cs : List Char) : Prop :=
  ∀ c ∈ cs, isSpace c = true

/-- What stands between the quotes of a string, with the marks it spells. -/
inductive Spelling : List Mark → List Char → Prop
  | nil : Spelling [] []
  | plain {c : Char} {marks : List Mark} {cs : List Char} (quote : c ≠ '"') (slash : c ≠ '\\')
      (control : ¬ c.toNat < 0x20) (rest : Spelling marks cs) : Spelling (.plain c :: marks) (c :: cs)
  | short {c d : Char} {marks : List Mark} {cs : List Char} (escape : shortEscape? c = some d)
      (rest : Spelling marks cs) : Spelling (.plain d :: marks) ('\\' :: c :: cs)
  | unit {a b c d : Char} {code : Nat} {marks : List Mark} {cs : List Char}
      (digits : Text.Hex.number? [a, b, c, d] = some code) (rest : Spelling marks cs) :
      Spelling (.unit code :: marks) ('\\' :: 'u' :: a :: b :: c :: d :: cs)

inductive Quoted : String → List Char → Prop
  | mk {marks : List Mark} {cs : List Char} (spelling : Spelling marks cs) :
      Quoted (String.ofList (joinMarks marks)) ('"' :: (cs ++ ['"']))

mutual

inductive Value : Json → List Char → Prop
  | null : Value .null ['n', 'u', 'l', 'l']
  | yes : Value (.bool true) ['t', 'r', 'u', 'e']
  | no : Value (.bool false) ['f', 'a', 'l', 's', 'e']
  | number {literal : String} (spelled : Literal literal.toList) :
      Value (.number literal) literal.toList
  | string {s : String} {cs : List Char} (quoted : Quoted s cs) : Value (.string s) cs
  | emptyArray {cs : List Char} (blank : Blank cs) : Value (.array []) ('[' :: (cs ++ [']']))
  | array {items : List Json} {cs : List Char} (inner : Items items cs) :
      Value (.array items) ('[' :: (cs ++ [']']))
  | emptyObject {cs : List Char} (blank : Blank cs) : Value (.object []) ('\x7b' :: (cs ++ ['\x7d']))
  | object {members : List (String × Json)} {cs : List Char} (inner : Pairs members cs) :
      Value (.object members) ('\x7b' :: (cs ++ ['\x7d']))

/-- A value with white space around it. -/
inductive Document : Json → List Char → Prop
  | mk {j : Json} {before cs after : List Char} (blank : Blank before) (value : Value j cs)
      (blank' : Blank after) : Document j (before ++ (cs ++ after))

inductive Items : List Json → List Char → Prop
  | one {item : Json} {cs : List Char} (first : Document item cs) : Items [item] cs
  | cons {item : Json} {items : List Json} {cs rest : List Char} (first : Document item cs)
      (more : Items items rest) : Items (item :: items) (cs ++ ',' :: rest)

inductive Pair : String × Json → List Char → Prop
  | mk {key : String} {value : Json} {before cs after text : List Char} (blank : Blank before)
      (name : Quoted key cs) (blank' : Blank after) (document : Document value text) :
      Pair (key, value) (before ++ (cs ++ (after ++ ':' :: text)))

inductive Pairs : List (String × Json) → List Char → Prop
  | one {m : String × Json} {cs : List Char} (first : Pair m cs) : Pairs [m] cs
  | cons {m : String × Json} {members : List (String × Json)} {cs rest : List Char}
      (first : Pair m cs) (more : Pairs members rest) :
      Pairs (m :: members) (cs ++ ',' :: rest)

end

theorem blank_nil : Blank [] := by
  simp [Blank]

theorem Value.document {j : Json} {cs : List Char} (h : Value j cs) : Document j cs := by
  simpa using Document.mk blank_nil h blank_nil

theorem Blank.append {cs ds : List Char} (hcs : Blank cs) (hds : Blank ds) : Blank (cs ++ ds) := by
  intro c hc
  rcases List.mem_append.1 hc with hc | hc
  · exact hcs c hc
  · exact hds c hc

theorem exists_skipSpace (cs : List Char) : ∃ before, Blank before ∧ cs = before ++ skipSpace cs :=
  ⟨cs.takeWhile isSpace, List.all_eq_true.1 List.all_takeWhile,
    List.takeWhile_append_dropWhile.symm⟩

theorem Blank.skipSpace {before : List Char} (h : Blank before) (cs : List Char) :
    skipSpace (before ++ cs) = skipSpace cs := by
  induction before with
  | nil => rfl
  | cons c before ih =>
      obtain ⟨hc, hbefore⟩ := List.forall_mem_cons.1 h
      rw [List.cons_append, Json.skipSpace, List.dropWhile_cons_of_pos hc]
      exact ih hbefore

theorem skipSpace_cons {c : Char} (hc : isSpace c = false) (cs : List Char) :
    skipSpace (c :: cs) = c :: cs := by
  simp [skipSpace, hc]

theorem skipSpace_skipSpace (cs : List Char) : skipSpace (skipSpace cs) = skipSpace cs := by
  obtain ⟨before, hbefore, hcs⟩ := exists_skipSpace cs
  conv_rhs => rw [hcs, hbefore.skipSpace]

theorem Blank.closes {cs : List Char} (h : Blank cs) {rest : List Char} (hrest : Closes rest) :
    Closes (cs ++ rest) := by
  cases cs with
  | nil => exact hrest
  | cons c cs =>
      have hc := h c (by simp)
      simp only [isSpace, Bool.or_eq_true, beq_iff_eq] at hc
      rcases hc with ((rfl | rfl) | rfl) | rfl <;> simp [Closes, isDigit]

theorem shortEscape?_ne {c d : Char} (h : shortEscape? c = some d) : c ≠ 'u' := by
  rintro rfl
  cases h

theorem Spelling.read {marks : List Mark} {cs : List Char} (h : Spelling marks cs)
    (rest : List Char) : readMarks (cs ++ '"' :: rest) = some (marks, rest) := by
  induction h with
  | nil => rfl
  | plain quote slash control _ ih =>
      rw [List.cons_append, readMarks.eq_5 _ _ quote (fun _ _ _ _ _ h => absurd h slash)
        (fun _ _ h => absurd h slash), if_neg control, ih]
  | short escape _ ih =>
      rw [List.cons_append, List.cons_append,
        readMarks.eq_4 _ _ (fun _ _ _ _ _ h _ => shortEscape?_ne escape h), escape, ih]
  | unit digits _ ih => simp only [List.cons_append, readMarks, digits, ih]

theorem spelling_of_read {cs rest : List Char} {marks : List Mark}
    (h : readMarks cs = some (marks, rest)) :
    ∃ body, Spelling marks body ∧ cs = body ++ '"' :: rest := by
  fun_induction readMarks cs generalizing marks with
  | case1 | case4 | case6 | case7 | case9 => cases h
  | case2 tail =>
      cases h
      exact ⟨[], .nil, rfl⟩
  | case3 a b c d tail code found rest' hread hcode ih =>
      cases h
      obtain ⟨body, hbody, rfl⟩ := ih hread
      exact ⟨_, .unit hcode hbody, rfl⟩
  | case5 c tail _ d found rest' hread hescape ih =>
      cases h
      obtain ⟨body, hbody, rfl⟩ := ih hread
      exact ⟨_, .short hescape hbody, rfl⟩
  | case8 c tail hquote _ hslash hcontrol found rest' hread ih =>
      cases h
      obtain ⟨body, hbody, rfl⟩ := ih hread
      refine ⟨_, .plain hquote ?_ hcontrol hbody, rfl⟩
      rintro rfl
      obtain ⟨d, ds, hcons⟩ := List.exists_cons_of_ne_nil
        (List.append_ne_nil_of_right_ne_nil body (List.cons_ne_nil '"' rest))
      exact hslash d ds rfl hcons

theorem Quoted.read {s : String} {cs : List Char} (h : Quoted s cs) (rest : List Char) :
    ∃ tail, cs ++ rest = '"' :: tail ∧ readString tail = some (s, rest) := by
  obtain ⟨hspelling⟩ := h
  rename_i marks cs
  refine ⟨cs ++ '"' :: rest, by simp, ?_⟩
  rw [readString, hspelling.read, Option.map_some]

theorem quoted_of_read {cs rest : List Char} {s : String} (h : readString cs = some (s, rest)) :
    ∃ body, Quoted s body ∧ '"' :: cs = body ++ rest := by
  rw [readString, Option.map_eq_some_iff] at h
  obtain ⟨⟨marks, rest'⟩, hread, h⟩ := h
  cases h
  obtain ⟨body, hbody, rfl⟩ := spelling_of_read hread
  exact ⟨_, .mk hbody, by simp⟩

theorem Document.pad {j : Json} {cs before : List Char} (h : Document j cs) (hbefore : Blank before) :
    Document j (before ++ cs) := by
  obtain ⟨hblank, hvalue, hblank'⟩ := h
  rw [← List.append_assoc]
  exact .mk (hbefore.append hblank) hvalue hblank'

theorem Items.pad {items : List Json} {cs before : List Char} (h : Items items cs)
    (hbefore : Blank before) : Items items (before ++ cs) := by
  cases h with
  | one first => exact .one (first.pad hbefore)
  | cons first more =>
      rw [← List.append_assoc]
      exact .cons (first.pad hbefore) more

theorem Pair.pad {m : String × Json} {cs before : List Char} (h : Pair m cs)
    (hbefore : Blank before) : Pair m (before ++ cs) := by
  obtain ⟨hblank, hname, hblank', hdocument⟩ := h
  rw [← List.append_assoc]
  exact .mk (hbefore.append hblank) hname hblank' hdocument

theorem Pairs.pad {members : List (String × Json)} {cs before : List Char}
    (h : Pairs members cs) (hbefore : Blank before) : Pairs members (before ++ cs) := by
  cases h with
  | one first => exact .one (first.pad hbefore)
  | cons first more =>
      rw [← List.append_assoc]
      exact .cons (first.pad hbefore) more

/-- Items are read one by one: after each comes the end of the list or the next of them. -/
theorem readItems_some {fuel depth : Nat} {cs rest : List Char} {items : List Json}
    (h : readItems (fuel + 1) depth cs = some (items, rest)) :
    ∃ item tail, readValue fuel depth cs = some (item, tail) ∧
      ((skipSpace tail = ']' :: rest ∧ items = [item]) ∨
        ∃ rest' more, skipSpace tail = ',' :: rest' ∧
          readItems fuel depth rest' = some (more, rest) ∧ items = item :: more) := by
  rw [readItems] at h
  split at h
  · cases h
  · rename_i item tail hread
    refine ⟨item, tail, hread, ?_⟩
    split at h
    · rename_i hclose
      cases h
      exact .inl ⟨hclose, rfl⟩
    · rename_i rest' hcomma
      obtain ⟨⟨more, _⟩, hmore, h⟩ := Option.map_eq_some_iff.1 h
      cases h
      exact .inr ⟨rest', more, hcomma, hmore, rfl⟩
    · cases h

theorem readMembers_some {fuel depth : Nat} {cs rest : List Char} {members : List (String × Json)}
    (h : readMembers (fuel + 1) depth cs = some (members, rest)) :
    ∃ inner key inner' text value tail, skipSpace cs = '"' :: inner ∧
      readString inner = some (key, inner') ∧ skipSpace inner' = ':' :: text ∧
      readValue fuel depth text = some (value, tail) ∧
      ((skipSpace tail = '\x7d' :: rest ∧ members = [(key, value)]) ∨
        ∃ rest' more, skipSpace tail = ',' :: rest' ∧
          readMembers fuel depth rest' = some (more, rest) ∧ members = (key, value) :: more) := by
  rw [readMembers] at h
  split at h
  · rename_i inner hskip
    split at h
    · cases h
    · rename_i key inner' hkey
      split at h
      · rename_i text hcolon
        split at h
        · cases h
        · rename_i value tail hread
          refine ⟨inner, key, inner', text, value, tail, hskip, hkey, hcolon, hread, ?_⟩
          split at h
          · rename_i hclose
            cases h
            exact .inl ⟨hclose, rfl⟩
          · rename_i rest' hcomma
            obtain ⟨⟨more, _⟩, hmore, h⟩ := Option.map_eq_some_iff.1 h
            cases h
            exact .inr ⟨rest', more, hcomma, hmore, rfl⟩
          · cases h
      · cases h
  · cases h

mutual

/-- What is read as a value is a text of the value, after white space. -/
theorem value_of_read {j : Json} {rest : List Char} : (fuel depth : Nat) → (cs : List Char) →
    readValue fuel depth cs = some (j, rest) →
    ∃ before body, cs = before ++ (body ++ rest) ∧ Blank before ∧ Value j body ∧ j.depth ≤ depth
  | 0, _, _, h => by simp [readValue] at h
  | fuel + 1, depth, cs, h => by
      obtain ⟨before, hbefore, hcs⟩ := exists_skipSpace cs
      suffices hbody : ∃ body, skipSpace cs = body ++ rest ∧ Value j body ∧ j.depth ≤ depth by
        obtain ⟨body, hskip, hvalue, hdepth⟩ := hbody
        exact ⟨before, body, by rwa [← hskip], hbefore, hvalue, hdepth⟩
      rw [readValue] at h
      generalize skipSpace cs = tail at h
      split at h
      · rw [Option.map_eq_some_iff] at h
        obtain ⟨⟨s, rest'⟩, hread, h⟩ := h
        cases h
        obtain ⟨body, hquoted, heq⟩ := quoted_of_read hread
        exact ⟨body, heq, .string hquoted, Nat.zero_le depth⟩
      · rename_i inner
        split at h
        · cases h
        · rename_i depth
          obtain ⟨blank, hblank, hinner⟩ := exists_skipSpace inner
          split at h
          · rename_i rest' hskip
            cases h
            rw [hskip] at hinner
            exact ⟨_, by rw [hinner]; simp, .emptyArray hblank, by simp [Json.depth, itemsDepth]⟩
          · rw [Option.map_eq_some_iff] at h
            obtain ⟨⟨items, rest'⟩, hread, h⟩ := h
            cases h
            obtain ⟨body, hbody, hitems, hdepth⟩ := items_of_read fuel depth _ hread
            rw [hbody] at hinner
            exact ⟨_, by rw [hinner]; simp, .array (hitems.pad hblank), Nat.succ_le_succ hdepth⟩
      · rename_i inner
        split at h
        · cases h
        · rename_i depth
          obtain ⟨blank, hblank, hinner⟩ := exists_skipSpace inner
          split at h
          · rename_i rest' hskip
            cases h
            rw [hskip] at hinner
            exact ⟨_, by rw [hinner]; simp, .emptyObject hblank, by simp [Json.depth, membersDepth]⟩
          · rw [Option.map_eq_some_iff] at h
            obtain ⟨⟨members, rest'⟩, hread, h⟩ := h
            cases h
            obtain ⟨body, hbody, hmembers, hdepth⟩ := members_of_read fuel depth _ hread
            rw [hbody] at hinner
            exact ⟨_, by rw [hinner]; simp, .object (hmembers.pad hblank), Nat.succ_le_succ hdepth⟩
      · cases h
        exact ⟨_, rfl, .yes, Nat.zero_le depth⟩
      · cases h
        exact ⟨_, rfl, .no, Nat.zero_le depth⟩
      · cases h
        exact ⟨_, rfl, .null, Nat.zero_le depth⟩
      · rw [Option.map_eq_some_iff] at h
        obtain ⟨⟨literal, rest'⟩, hread, h⟩ := h
        cases h
        obtain ⟨hliteral, heq⟩ := Literal.of_readNumber hread
        exact ⟨_, heq, .number hliteral, Nat.zero_le depth⟩

theorem items_of_read {items : List Json} {rest : List Char} : (fuel depth : Nat) →
    (cs : List Char) → readItems fuel depth cs = some (items, rest) →
    ∃ body, cs = body ++ ']' :: rest ∧ Items items body ∧ itemsDepth items ≤ depth
  | 0, _, _, h => by simp [readItems] at h
  | fuel + 1, depth, cs, h => by
      obtain ⟨item, tail, hread, hnext⟩ := readItems_some h
      obtain ⟨before, body, rfl, hbefore, hvalue, hdepth⟩ := value_of_read fuel depth cs hread
      obtain ⟨after, hafter, htail⟩ := exists_skipSpace tail
      have hdocument := Document.mk hbefore hvalue hafter
      rcases hnext with ⟨hclose, rfl⟩ | ⟨rest', more, hcomma, hmore, rfl⟩
      · rw [hclose] at htail
        exact ⟨_, by rw [htail]; simp, .one hdocument, by simpa [itemsDepth] using hdepth⟩
      · obtain ⟨body', rfl, hitems, hdepth'⟩ := items_of_read fuel depth rest' hmore
        rw [hcomma] at htail
        exact ⟨_, by rw [htail]; simp, .cons hdocument hitems, Nat.max_le.2 ⟨hdepth, hdepth'⟩⟩

theorem members_of_read {members : List (String × Json)} {rest : List Char} :
    (fuel depth : Nat) → (cs : List Char) → readMembers fuel depth cs = some (members, rest) →
    ∃ body, cs = body ++ '\x7d' :: rest ∧ Pairs members body ∧ membersDepth members ≤ depth
  | 0, _, _, h => by simp [readMembers] at h
  | fuel + 1, depth, cs, h => by
      obtain ⟨inner, key, inner', text, value, tail, hskip, hkey, hcolon, hread, hnext⟩ :=
        readMembers_some h
      obtain ⟨before, hbefore, hcs⟩ := exists_skipSpace cs
      obtain ⟨name, hname, heq⟩ := quoted_of_read hkey
      obtain ⟨after, hafter, hinner⟩ := exists_skipSpace inner'
      obtain ⟨blank, body, rfl, hblank, hvalue, hdepth⟩ := value_of_read fuel depth text hread
      obtain ⟨blank', hblank', htail⟩ := exists_skipSpace tail
      have hmember := Pair.mk hbefore hname hafter (.mk hblank hvalue hblank')
      rw [hskip, heq] at hcs
      rw [hcolon] at hinner
      rcases hnext with ⟨hclose, rfl⟩ | ⟨rest', more, hcomma, hmore, rfl⟩
      · rw [hclose] at htail
        refine ⟨_, ?_, .one hmember, by simpa [membersDepth] using hdepth⟩
        rw [hcs, hinner, htail]
        simp
      · obtain ⟨body', rfl, hmembers, hdepth'⟩ := members_of_read fuel depth rest' hmore
        rw [hcomma] at htail
        refine ⟨_, ?_, .cons hmember hmembers, Nat.max_le.2 ⟨hdepth, hdepth'⟩⟩
        rw [hcs, hinner, htail]
        simp

end

theorem readValue_skipSpace (fuel depth : Nat) (cs : List Char) :
    readValue fuel depth (skipSpace cs) = readValue fuel depth cs := by
  cases fuel with
  | zero => simp only [readValue]
  | succ fuel => simp only [readValue, skipSpace_skipSpace]

theorem readItems_skipSpace (fuel depth : Nat) (cs : List Char) :
    readItems fuel depth (skipSpace cs) = readItems fuel depth cs := by
  cases fuel with
  | zero => simp only [readItems]
  | succ fuel => simp only [readItems, readValue_skipSpace]

theorem readMembers_skipSpace (fuel depth : Nat) (cs : List Char) :
    readMembers fuel depth (skipSpace cs) = readMembers fuel depth cs := by
  cases fuel with
  | zero => simp only [readMembers]
  | succ fuel => simp only [readMembers, skipSpace_skipSpace]

theorem Literal.not_space {cs : List Char} (h : Literal cs) :
    ∃ c tail, cs = c :: tail ∧ isSpace c = false ∧ c ∉ ['"', '[', ']', '\x7b', 't', 'f', 'n'] := by
  obtain ⟨c, tail, rfl, hc⟩ := h.head
  refine ⟨c, tail, rfl, ?_⟩
  rcases hc with rfl | hc
  · decide
  · constructor
    · by_contra hspace
      simp only [isSpace, Bool.not_eq_false, Bool.or_eq_true, beq_iff_eq] at hspace
      rcases hspace with ((rfl | rfl) | rfl) | rfl <;> cases hc
    · intro hmem
      simp only [List.mem_cons, List.not_mem_nil, or_false] at hmem
      rcases hmem with rfl | rfl | rfl | rfl | rfl | rfl | rfl <;> cases hc

/-- A text of a value begins with a character that is not passed over and closes no list. -/
theorem Value.head {j : Json} {cs : List Char} (h : Value j cs) :
    ∃ c tail, cs = c :: tail ∧ isSpace c = false ∧ c ≠ ']' := by
  cases h with
  | null | yes | no | emptyArray _ | array _ | emptyObject _ | object _ =>
      exact ⟨_, _, rfl, by decide, by decide⟩
  | string quoted =>
      obtain ⟨_⟩ := quoted
      exact ⟨_, _, rfl, by decide, by decide⟩
  | number spelled =>
      obtain ⟨c, tail, hcs, hspace, hc⟩ := spelled.not_space
      exact ⟨c, tail, hcs, hspace, fun heq => hc (by simp [heq])⟩

theorem Value.skipSpace {j : Json} {cs : List Char} (h : Value j cs) (rest : List Char) :
    skipSpace (cs ++ rest) = cs ++ rest := by
  obtain ⟨c, tail, rfl, hspace, -⟩ := h.head
  exact skipSpace_cons hspace _

theorem Literal.readValue {literal : String} (h : Literal literal.toList) {rest : List Char}
    (hrest : Closes rest) (fuel depth : Nat) :
    readValue (fuel + 1) depth (literal.toList ++ rest) = some (.number literal, rest) := by
  have hread := h.read hrest
  obtain ⟨c, tail, hcs, hspace, hc⟩ := h.not_space
  rw [String.ofList_toList] at hread
  rw [hcs, List.cons_append] at hread ⊢
  simp only [List.mem_cons, List.not_mem_nil, or_false, not_or] at hc
  simp [Json.readValue, skipSpace_cons hspace, hc, hread]

theorem Quoted.readValue {s : String} {cs : List Char} (h : Quoted s cs) (rest : List Char)
    (fuel depth : Nat) : readValue (fuel + 1) depth (cs ++ rest) = some (.string s, rest) := by
  obtain ⟨tail, hcs, hread⟩ := h.read rest
  simp [Json.readValue, hcs, skipSpace_cons (c := '"') rfl, hread]

theorem Items.head {items : List Json} {body : List Char} (h : Items items body)
    (rest : List Char) : ∃ c tail, Json.skipSpace (body ++ rest) = c :: tail ∧ c ≠ ']' := by
  have hfirst {j : Json} {cs : List Char} (hj : Document j cs) (rest : List Char) :
      ∃ c tail, Json.skipSpace (cs ++ rest) = c :: tail ∧ c ≠ ']' := by
    obtain ⟨hblank, hvalue, -⟩ := hj
    obtain ⟨c, tail, hcs, -, hc⟩ := hvalue.head
    rw [List.append_assoc, hblank.skipSpace, List.append_assoc, hvalue.skipSpace, hcs]
    exact ⟨c, _, rfl, hc⟩
  cases h with
  | one first => exact hfirst first rest
  | cons first more =>
      rw [List.append_assoc]
      exact hfirst first _

theorem Pairs.head {members : List (String × Json)} {body : List Char} (h : Pairs members body)
    (rest : List Char) : ∃ tail, Json.skipSpace (body ++ rest) = '"' :: tail := by
  have hfirst {m : String × Json} {cs : List Char} (hm : Pair m cs) (rest : List Char) :
      ∃ tail, Json.skipSpace (cs ++ rest) = '"' :: tail := by
    obtain ⟨hblank, ⟨hspelling⟩, -, -⟩ := hm
    rw [List.append_assoc, hblank.skipSpace]
    exact ⟨_, skipSpace_cons (c := '"') rfl _⟩
  cases h with
  | one first => exact hfirst first rest
  | cons first more =>
      rw [List.append_assoc]
      exact hfirst first _

mutual

/-- A text of a value is read as this value, as long as there is fuel for it and the value nests no
deeper than is allowed. -/
theorem Value.read {j : Json} {body : List Char} : Value j body → (fuel depth : Nat) →
    (rest : List Char) → Closes rest → j.depth ≤ depth → body.length ≤ fuel →
    readValue fuel depth (body ++ rest) = some (j, rest)
  | h, 0, _, _, _, _, hfuel => by
      obtain ⟨c, tail, rfl, -⟩ := h.head
      simp at hfuel
  | .null, _ + 1, _, _, _, _, _ => rfl
  | .yes, _ + 1, _, _, _, _, _ => rfl
  | .no, _ + 1, _, _, _, _, _ => rfl
  | .number spelled, fuel + 1, depth, _, hrest, _, _ => spelled.readValue hrest fuel depth
  | .string quoted, fuel + 1, depth, rest, _, _, _ => quoted.readValue rest fuel depth
  | .emptyArray blank, fuel + 1, depth, rest, _, hdepth, _ => by
      obtain ⟨depth, rfl⟩ := Nat.exists_eq_add_one.2 hdepth
      simp [readValue, skipSpace_cons (c := '[') rfl, blank.skipSpace, skipSpace_cons (c := ']') rfl]
  | .array inner, fuel + 1, depth, rest, _, hdepth, hfuel => by
      obtain ⟨depth, rfl⟩ := Nat.exists_eq_add_one.2 (Nat.lt_of_lt_of_le (Nat.succ_pos _) hdepth)
      have hitems := inner.read fuel depth rest (Nat.le_of_succ_le_succ hdepth)
        (by simp only [List.length_cons, List.length_append, List.length_nil] at hfuel; omega)
      obtain ⟨c, tail, hskip, hc⟩ := inner.head (']' :: rest)
      rw [← readItems_skipSpace, hskip] at hitems
      simp [readValue, skipSpace_cons (c := '[') rfl, hskip, hc, hitems]
  | .emptyObject blank, fuel + 1, depth, rest, _, hdepth, _ => by
      obtain ⟨depth, rfl⟩ := Nat.exists_eq_add_one.2 hdepth
      simp [readValue, skipSpace_cons (c := '\x7b') rfl, blank.skipSpace,
        skipSpace_cons (c := '\x7d') rfl]
  | .object inner, fuel + 1, depth, rest, _, hdepth, hfuel => by
      obtain ⟨depth, rfl⟩ := Nat.exists_eq_add_one.2 (Nat.lt_of_lt_of_le (Nat.succ_pos _) hdepth)
      have hmembers := inner.read fuel depth rest (Nat.le_of_succ_le_succ hdepth)
        (by simp only [List.length_cons, List.length_append, List.length_nil] at hfuel; omega)
      obtain ⟨tail, hskip⟩ := inner.head ('\x7d' :: rest)
      rw [← readMembers_skipSpace, hskip] at hmembers
      simp [readValue, skipSpace_cons (c := '\x7b') rfl, hskip, hmembers]

theorem Document.read {j : Json} {body : List Char} : Document j body → (fuel depth : Nat) →
    (rest : List Char) → Closes rest → j.depth ≤ depth → body.length ≤ fuel →
    ∃ tail, readValue fuel depth (body ++ rest) = some (j, tail) ∧ skipSpace tail = skipSpace rest
  | @Document.mk _ before cs after blank value blank', fuel, depth, rest, hrest, hdepth, hfuel => by
      have hvalue := value.read fuel depth (after ++ rest) (blank'.closes hrest) hdepth
        (by simp only [List.length_append] at hfuel; omega)
      refine ⟨after ++ rest, ?_, blank'.skipSpace rest⟩
      rw [← readValue_skipSpace, List.append_assoc, blank.skipSpace, List.append_assoc,
        readValue_skipSpace, hvalue]

theorem Items.read {items : List Json} {body : List Char} : Items items body → (fuel depth : Nat) →
    (rest : List Char) → itemsDepth items ≤ depth → body.length < fuel →
    readItems fuel depth (body ++ ']' :: rest) = some (items, rest)
  | .one first, fuel + 1, depth, rest, hdepth, hfuel => by
      obtain ⟨tail, hread, htail⟩ := first.read fuel depth (']' :: rest) (by simp [Closes, isDigit])
        (by simpa [itemsDepth] using hdepth) (Nat.le_of_lt_succ hfuel)
      simp [readItems, hread, htail, skipSpace_cons (c := ']') rfl]
  | @Items.cons _ _ _ others first more, fuel + 1, depth, rest, hdepth, hfuel => by
      obtain ⟨hdepth, hdepth'⟩ := Nat.max_le.1 hdepth
      simp only [List.length_append, List.length_cons] at hfuel
      have hmore := more.read fuel depth rest hdepth' (by omega)
      obtain ⟨tail, hread, htail⟩ := first.read fuel depth (',' :: (others ++ ']' :: rest))
        (by simp [Closes, isDigit]) hdepth (by omega)
      simp [readItems, hread, htail, skipSpace_cons (c := ',') rfl, hmore]

theorem Pair.read {m : String × Json} {body : List Char} : Pair m body → (fuel depth : Nat) →
    (rest : List Char) → Closes rest → m.2.depth ≤ depth → body.length ≤ fuel →
    ∃ inner after text tail, skipSpace (body ++ rest) = '"' :: inner ∧
      readString inner = some (m.1, after) ∧ skipSpace after = ':' :: text ∧
      readValue fuel depth text = some (m.2, tail) ∧ skipSpace tail = skipSpace rest
  | @Pair.mk _ _ before cs after text blank name blank' document, fuel, depth, rest, hrest,
      hdepth, hfuel => by
      simp only [List.length_append, List.length_cons] at hfuel
      obtain ⟨tail, hread, htail⟩ := document.read fuel depth rest hrest hdepth (by omega)
      obtain ⟨inner, hinner, hname⟩ := name.read (after ++ ':' :: (text ++ rest))
      refine ⟨inner, after ++ ':' :: (text ++ rest), text ++ rest, tail, ?_, hname, ?_, hread, htail⟩
      · rw [List.append_assoc, blank.skipSpace]
        simp only [List.append_assoc, List.cons_append, hinner]
        exact skipSpace_cons rfl _
      · rw [blank'.skipSpace]
        exact skipSpace_cons rfl _

theorem Pairs.read {members : List (String × Json)} {body : List Char} : Pairs members body →
    (fuel depth : Nat) → (rest : List Char) → membersDepth members ≤ depth → body.length < fuel →
    readMembers fuel depth (body ++ '\x7d' :: rest) = some (members, rest)
  | .one first, fuel + 1, depth, rest, hdepth, hfuel => by
      obtain ⟨inner, after, text, tail, hskip, hname, hcolon, hread, htail⟩ :=
        first.read fuel depth ('\x7d' :: rest) (by simp [Closes, isDigit])
          (by simpa [membersDepth] using hdepth) (Nat.le_of_lt_succ hfuel)
      simp [readMembers, hskip, hname, hcolon, hread, htail, skipSpace_cons (c := '\x7d') rfl]
  | @Pairs.cons _ _ _ others first more, fuel + 1, depth, rest, hdepth, hfuel => by
      obtain ⟨hdepth, hdepth'⟩ := Nat.max_le.1 hdepth
      simp only [List.length_append, List.length_cons] at hfuel
      have hmore := more.read fuel depth rest hdepth' (by omega)
      obtain ⟨inner, after, text, tail, hskip, hname, hcolon, hread, htail⟩ :=
        first.read fuel depth (',' :: (others ++ '\x7d' :: rest)) (by simp [Closes, isDigit]) hdepth
          (by omega)
      simp [readMembers, hskip, hname, hcolon, hread, htail, skipSpace_cons (c := ',') rfl, hmore]

end

theorem Document.unique {j k : Json} {cs : List Char} (hj : Document j cs) (hk : Document k cs) :
    j = k := by
  obtain ⟨tail, hread, -⟩ := hj.read cs.length (max j.depth k.depth) [] closes_nil
    (Nat.le_max_left _ _) le_rfl
  obtain ⟨tail', hread', -⟩ := hk.read cs.length (max j.depth k.depth) [] closes_nil
    (Nat.le_max_right _ _) le_rfl
  rw [hread, Option.some.injEq, Prod.mk.injEq] at hread'
  exact hread'.1

/-- The reader takes the first value of a text and leaves only white space exactly if the text is one
value that does not nest too deeply. -/
theorem readFirst_iff {cs : List Char} {j : Json} :
    (∃ tail, readFirst cs = some (j, tail) ∧ skipSpace tail = []) ↔
      Document j cs ∧ j.depth ≤ maxDepth := by
  constructor
  · rintro ⟨tail, hread, htail⟩
    obtain ⟨before, body, rfl, hbefore, hvalue, hdepth⟩ := value_of_read _ _ _ hread
    obtain ⟨after, hafter, hskip⟩ := exists_skipSpace tail
    rw [htail, List.append_nil] at hskip
    exact ⟨.mk hbefore hvalue (hskip ▸ hafter), hdepth⟩
  · rintro ⟨hdocument, hdepth⟩
    obtain ⟨tail, hread, htail⟩ := hdocument.read (2 * cs.length + 1) maxDepth [] closes_nil hdepth
      (by omega)
    rw [List.append_nil] at hread
    exact ⟨tail, hread, htail⟩

theorem parse_eq_ok {text : String} {j : Json} :
    parse text = .ok j ↔ Document j text.toList ∧ j.depth ≤ maxDepth := by
  rw [← readFirst_iff, parse]
  cases readFirst text.toList with
  | none => simp
  | some result =>
      obtain ⟨value, tail⟩ := result
      by_cases htail : skipSpace tail = [] <;> simp [htail]

end TenantQuery.Json
