import TenantQuery.Json.Tagged
import TenantQuery.Proofs.Json.Normal

namespace TenantQuery.Json

open Outcome

variable {σ α : Type}

namespace Member

def Independent (f g : Member σ) : Prop :=
  ∀ j k s, (f.write [] j s >>= g.write [] k).toOption = (g.write [] k s >>= f.write [] j).toOption

instance : Std.Symm (Independent (σ := σ)) :=
  ⟨fun _ _ h j k s => (h k j s).symm⟩

theorem independent_of {β : Type} {name name' : String} {slot : Slot α} {slot' : Slot β}
    {set : σ → α → σ} {set' : σ → β → σ} (h : ∀ s a b, set' (set s a) b = set (set' s b) a) :
    Independent (.of name slot set) (.of name' slot' set') := by
  intro j k s
  simp only [Member.of]
  cases slot [] j with
  | error e =>
      cases slot' [] k with
      | error e' => rfl
      | ok b => rfl
  | ok a =>
      cases slot' [] k with
      | error e' => rfl
      | ok b => exact congrArg some (h s a b)

theorem lift_of {τ : Type} (get : σ → τ) (put : σ → τ → σ) (name : String) (slot : Slot α)
    (set : τ → α → τ) :
    lift get put (.of name slot set) = .of name slot fun s a => put s (set (get s) a) := by
  simp only [lift, Member.of, Member.mk.injEq, true_and]
  funext earlier j s
  cases slot earlier j <;> rfl

end Member

/-- Fields whose names are told apart whatever the case of their letters, and of which each is
written on its own. -/
structure Sound (fields : List (Member σ)) : Prop where
  distinct : (fields.map fun f => foldName f.name).Nodup
  plain : ∀ f ∈ fields, f.name.toList.all (·.toNat < 0xc0) = true
  independent : fields.Pairwise Member.Independent

/-- Writes a member to the field it names, as the first value of this field. -/
def takeMember (fields : List (Member σ)) (s : σ) (m : String × Json) : Except Error σ :=
  match member? fields m.1 with
  | none => .ok s
  | some f => f.write [] m.2 s

/-- Writes members one by one, each to a field that nothing was written to before. -/
def takeMembers (fields : List (Member σ)) (s : σ) (ms : List (String × Json)) : Except Error σ :=
  ms.foldlM (takeMember fields) s

def Exact (fields : List (Member σ)) (key : String) : Prop :=
  ∀ f, member? fields key = some f → f.name = key

section Reading

variable {fields : List (Member σ)}

theorem takeMembers_cons (s : σ) (m : String × Json) (ms : List (String × Json)) :
    takeMembers fields s (m :: ms) = takeMember fields s m >>= fun s => takeMembers fields s ms :=
  List.foldlM_cons

theorem takeMembers_append (s : σ) (ms ns : List (String × Json)) :
    takeMembers fields s (ms ++ ns) =
      takeMembers fields s ms >>= fun s => takeMembers fields s ns :=
  List.foldlM_append

theorem valuesOf_eq_nil {name : String} {written : List (String × Json)}
    (h : name ∉ written.map (·.1)) : valuesOf name written = [] := by
  rw [valuesOf, List.filterMap_eq_nil_iff]
  rintro ⟨field, j⟩ hm
  have hne : field ≠ name := by
    rintro rfl
    exact h (List.mem_map.2 ⟨_, hm, rfl⟩)
  simp [hne]

theorem readFields_eq_takeMembers {ms written : List (String × Json)} (s : σ)
    (hexact : ∀ m ∈ ms, Exact fields m.1) (hnodup : (ms.map (·.1)).Nodup)
    (hwritten : ∀ m ∈ ms, m.1 ∉ written.map (·.1)) :
    readFields fields written s ms = takeMembers fields s ms := by
  induction ms generalizing written s with
  | nil => rfl
  | cons m ms ih =>
      obtain ⟨key, j⟩ := m
      obtain ⟨hkey, hnodup⟩ := List.nodup_cons.1 hnodup
      obtain ⟨hexact₀, hexact⟩ := List.forall_mem_cons.1 hexact
      obtain ⟨hwritten₀, hwritten⟩ := List.forall_mem_cons.1 hwritten
      rw [readFields, takeMembers_cons, takeMember]
      cases hfield : member? fields key with
      | none => exact ih s hexact hnodup hwritten
      | some f =>
          have hname : f.name = key := hexact₀ f hfield
          have hempty : valuesOf f.name written = [] :=
            valuesOf_eq_nil (by rw [hname]; exact hwritten₀)
          simp only [hempty]
          congr 1
          funext s'
          refine ih s' hexact hnodup ?_
          intro m hm
          rw [List.map_cons, List.mem_cons, not_or, hname]
          refine ⟨?_, hwritten m hm⟩
          intro heq
          exact hkey (List.mem_map.2 ⟨m, hm, heq⟩)

theorem mem_of_member? {key : String} {f : Member σ} (h : member? fields key = some f) :
    f ∈ fields ∧ foldName f.name = foldName key :=
  ⟨List.mem_of_find?_eq_some h, by simpa using List.find?_some h⟩

theorem Sound.independent_of_ne (hsound : Sound fields) {f g : Member σ} (hf : f ∈ fields)
    (hg : g ∈ fields) (hne : f.name ≠ g.name) : f.Independent g := by
  refine hsound.independent.forall hf hg ?_
  rintro rfl
  exact hne rfl

theorem Sound.member?_name (hsound : Sound fields) {f : Member σ} (hf : f ∈ fields) :
    member? fields f.name = some f := by
  cases h : member? fields f.name with
  | none =>
      have := List.find?_eq_none.1 h f hf
      simp at this
  | some g =>
      obtain ⟨hg, hname⟩ := mem_of_member? h
      rw [List.inj_on_of_nodup_map hsound.distinct hg hf hname]

/-- The order of members that are named once each makes no difference. -/
theorem takeMembers_perm (hsound : Sound fields) {ms ns : List (String × Json)} (hperm : ms.Perm ns)
    (hexact : ∀ m ∈ ms, Exact fields m.1) (hnodup : (ms.map (·.1)).Nodup) (s : σ) :
    (takeMembers fields s ms).toOption = (takeMembers fields s ns).toOption := by
  induction hperm generalizing s with
  | nil => rfl
  | cons m _ ih =>
      rw [takeMembers_cons, takeMembers_cons]
      cases takeMember fields s m with
      | error e => rfl
      | ok s' =>
          exact ih (fun n hn => hexact n (List.mem_cons_of_mem m hn)) (List.nodup_cons.1 hnodup).2 s'
  | swap m n ms =>
      have hne : n.1 ≠ m.1 := by
        intro heq
        exact (List.nodup_cons.1 hnodup).1 (by simp [heq])
      have hswap : (takeMember fields s n >>= fun s => takeMember fields s m).toOption =
          (takeMember fields s m >>= fun s => takeMember fields s n).toOption := by
        unfold takeMember
        cases hfield : member? fields n.1 with
        | none => cases member? fields m.1 <;> simp
        | some f =>
            cases hfield' : member? fields m.1 with
            | none => simp
            | some g =>
                have hf : f.name = n.1 := hexact n (by simp) f hfield
                have hg : g.name = m.1 := hexact m (by simp) g hfield'
                exact hsound.independent_of_ne (mem_of_member? hfield).1 (mem_of_member? hfield').1
                  (by rw [hf, hg]; exact hne) n.2 m.2 s
      simp only [takeMembers_cons, ← bind_assoc]
      cases h : (takeMember fields s n >>= fun s => takeMember fields s m) with
      | error e =>
          cases h' : (takeMember fields s m >>= fun s => takeMember fields s n) with
          | error e' => rfl
          | ok s' => simp [h, h', Except.toOption] at hswap
      | ok s' =>
          cases h' : (takeMember fields s m >>= fun s => takeMember fields s n) with
          | error e' => simp [h, h', Except.toOption] at hswap
          | ok s'' =>
              rw [h, h'] at hswap
              cases hswap
              rfl
  | trans hperm _ ih ih' =>
      rw [ih hexact hnodup s]
      exact ih' (fun m hm => hexact m (hperm.mem_iff.2 hm)) ((hperm.map _).nodup_iff.1 hnodup) s

end Reading

/-- From `s` the members `ms` write the record `t` when they are read in normal form. The members
`ms'` are those that `t` is written as again. -/
inductive Writes : List (Member σ) → σ → List (String × Json) → List (String × Json) → σ → Prop
  | nil {s : σ} : Writes [] s [] [] s
  | skip {f : Member σ} {fs : List (Member σ)} {s t : σ} {ms ms' : List (String × Json)}
      (h : Writes fs s ms ms' t) : Writes (f :: fs) s ms ms' t
  | null {f : Member σ} {fs : List (Member σ)} {s t : σ} {ms ms' : List (String × Json)}
      (h : Writes fs s ms ms' t) :
      Writes (f :: fs) s ((f.name, .null) :: ms) ((f.name, .null) :: ms') t
  | cons {f : Member σ} {fs : List (Member σ)} {s s' t : σ} {ms ms' : List (String × Json)}
      {j j' : Json} (halike : Alike j j') (hnull : j.isNull = false)
      (hwrite : j.Settles → f.write [] j.settled s = .ok s') (h : Writes fs s' ms ms' t) :
      Writes (f :: fs) s ((f.name, j) :: ms) ((f.name, j') :: ms') t

namespace Writes

variable {fields fs : List (Member σ)} {s t : σ} {ms ms' : List (String × Json)}

theorem last (h : Writes fs s (ms ++ []) (ms' ++ []) t) : Writes fs s ms ms' t := by
  rwa [List.append_nil, List.append_nil] at h

theorem sublist (h : Writes fs s ms ms' t) : (ms.map (·.1)).Sublist (fs.map (·.name)) := by
  induction h with
  | nil => exact List.Sublist.slnil
  | skip _ ih => exact ih.cons _
  | null _ ih => exact ih.cons_cons _
  | cons _ _ _ _ ih => exact ih.cons_cons _

theorem keys_eq (h : Writes fs s ms ms' t) : ms'.map (·.1) = ms.map (·.1) := by
  induction h with
  | nil => rfl
  | skip _ ih => exact ih
  | null _ ih => rw [List.map_cons, List.map_cons, ih]
  | cons _ _ _ _ ih => rw [List.map_cons, List.map_cons, ih]

theorem proper (h : Writes fs s ms ms' t) : ∀ m ∈ ms, m.2.Proper := by
  induction h with
  | nil => simp
  | skip _ ih => exact ih
  | null _ ih => exact List.forall_mem_cons.2 ⟨trivial, ih⟩
  | cons halike _ _ _ ih => exact List.forall_mem_cons.2 ⟨halike.proper, ih⟩

theorem proper' (h : Writes fs s ms ms' t) : ∀ m ∈ ms', m.2.Proper := by
  induction h with
  | nil => simp
  | skip _ ih => exact ih
  | null _ ih => exact List.forall_mem_cons.2 ⟨trivial, ih⟩
  | cons halike _ _ _ ih => exact List.forall_mem_cons.2 ⟨halike.proper', ih⟩

theorem normalMembers_eq (h : Writes fs s ms ms' t) (hsettles : ∀ m ∈ ms, m.2.Settles) :
    normalMembers ms' = normalMembers ms := by
  induction h with
  | nil => rfl
  | skip _ ih => exact ih hsettles
  | null _ ih =>
      rw [normalMembers, normalMembers, ih (List.forall_mem_cons.1 hsettles).2]
  | cons halike _ _ _ ih =>
      obtain ⟨hsettle, hsettles⟩ := List.forall_mem_cons.1 hsettles
      rw [normalMembers, normalMembers, ih hsettles, halike.normalForm_eq hsettle]

theorem names_nodup (hsound : Sound fields) (h : Writes fields s ms ms' t) :
    (ms.map (·.1)).Nodup := by
  have hnames : (fields.map (·.name)).Nodup := by
    refine List.Nodup.of_map foldName ?_
    rw [List.map_map]
    exact hsound.distinct
  exact h.sublist.nodup hnames

theorem takeMembers_kept (h : Writes fs s ms ms' t)
    (hfields : ∀ f ∈ fs, member? fields f.name = some f ∧ Text.normal f.name = f.name)
    (hsettles : ∀ m ∈ ms, m.2.Settles) : takeMembers fields s (kept ms) = .ok t := by
  induction h with
  | nil => rfl
  | skip _ ih => exact ih (List.forall_mem_cons.1 hfields).2 hsettles
  | null _ ih =>
      have hrest := ih (List.forall_mem_cons.1 hfields).2 (List.forall_mem_cons.1 hsettles).2
      rw [kept_cons]
      simpa [isNull] using hrest
  | cons halike hnull hwrite _ ih =>
      obtain ⟨⟨hmember, hplain⟩, hfields⟩ := List.forall_mem_cons.1 hfields
      obtain ⟨hj, hsettles⟩ := List.forall_mem_cons.1 hsettles
      have hrest := ih hfields hsettles
      rw [kept_cons]
      simp only [isNull_settled, hnull, Bool.false_eq_true, if_false, takeMembers_cons, takeMember,
        hplain, hmember]
      rw [hwrite hj, ok_bind, hrest]

end Writes

def Foreign (fields : List (Member σ)) (extra : List (String × Json)) : Prop :=
  ∀ m ∈ extra, member? fields m.1 = none ∧ Text.normal m.1 = m.1

theorem takeMembers_foreign {fields : List (Member σ)} {extra : List (String × Json)}
    (h : Foreign fields extra) (s : σ) : takeMembers fields s (kept extra) = .ok s := by
  induction extra with
  | nil => rfl
  | cons m extra ih =>
      obtain ⟨⟨hmember, hplain⟩, hextra⟩ := List.forall_mem_cons.1 h
      rw [kept_cons]
      split
      · exact ih hextra
      · rw [takeMembers_cons, takeMember, hplain, hmember, ok_bind, ih hextra]

theorem kept_append (ms ns : List (String × Json)) : kept (ms ++ ns) = kept ms ++ kept ns := by
  simp [kept]

/-- A record is read from its normal form, whatever else stands beside its members. -/
theorem readRecord_settled {fields : List (Member σ)} {s t : σ}
    {extra ms ms' members : List (String × Json)} (hsound : Sound fields)
    (h : Writes fields s ms ms' t) (hextra : Foreign fields extra)
    (hmembers : (extra ++ ms).Perm members) (hkeys : (members.map (·.1)).Nodup)
    (hsettles : (object members).Settles) :
    readRecord fields s (object members).settled = .ok t := by
  obtain ⟨hsettle, hnodup⟩ := (settles_object hkeys).1 hsettles
  have hplain : ∀ f ∈ fields, member? fields f.name = some f ∧ Text.normal f.name = f.name :=
    fun f hf => ⟨hsound.member?_name hf, Text.normal_eq_self (hsound.plain f hf)⟩
  have hexact : ∀ m ∈ kept (extra ++ ms), Exact fields m.1 := by
    intro m hm f hf
    obtain ⟨n, hn, -, rfl⟩ := mem_kept.1 hm
    rcases List.mem_append.1 hn with hn | hn
    · rw [(hextra n hn).2, (hextra n hn).1] at hf
      cases hf
    · obtain ⟨g, hg, hname⟩ := List.mem_map.1 (h.sublist.subset (List.mem_map.2 ⟨n, hn, rfl⟩))
      dsimp only at hname hf ⊢
      rw [← hname, (hplain g hg).2, (hplain g hg).1] at hf
      rw [← Option.some.inj hf, ← hname, (hplain g hg).2]
  have hkept : (kept (extra ++ ms)).Perm (kept members) := (hmembers.filter _).map _
  have hperm := hkept.trans (perm_sortByUnits (kept members)).symm
  have hnodup' := (hkept.map Prod.fst).nodup_iff.2 hnodup
  have htake : takeMembers fields s (kept (extra ++ ms)) = .ok t := by
    rw [kept_append, takeMembers_append, takeMembers_foreign hextra, ok_bind]
    refine h.takeMembers_kept hplain fun m hm => hsettle m ?_
    exact hmembers.mem_iff.1 (List.mem_append_right extra hm)
  have hsorted := takeMembers_perm hsound hperm hexact hnodup' s
  rw [htake] at hsorted
  rw [settled_object hkeys hsettles]
  change readFields fields [] s (sortByUnits (kept members)) = .ok t
  rw [readFields_eq_takeMembers s (fun m hm => hexact m (hperm.mem_iff.2 hm))
    ((hperm.map _).nodup_iff.1 hnodup') (by simp)]
  cases hresult : takeMembers fields s (sortByUnits (kept members)) with
  | error e => simp [hresult, Except.toOption] at hsorted
  | ok t' =>
      simp only [hresult, Except.toOption, Option.some.injEq] at hsorted
      rw [hsorted]

theorem Writes.alike {fields : List (Member σ)} {s t : σ} {extra ms ms' : List (String × Json)}
    (h : Writes fields s ms ms' t) (hextra : ∀ m ∈ extra, m.2.Proper)
    (hkeys : ((extra ++ ms).map (·.1)).Nodup) :
    Alike (object (extra ++ ms)) (object (extra ++ ms')) := by
  have hkeys' : ((extra ++ ms').map (·.1)).Nodup := by
    rw [List.map_append, h.keys_eq, ← List.map_append]
    exact hkeys
  refine ⟨everywhere_object.2 ⟨hkeys, ?_⟩, everywhere_object.2 ⟨hkeys', ?_⟩, fun hsettles => ?_⟩
  · exact fun m hm => (List.mem_append.1 hm).elim (hextra m) (h.proper m)
  · exact fun m hm => (List.mem_append.1 hm).elim (hextra m) (h.proper' m)
  · have hsettle := ((settles_object hkeys).1 hsettles).1
    have hms := h.normalMembers_eq fun m hm => hsettle m (List.mem_append_right extra hm)
    have hmembers : normalMembers (extra ++ ms') = normalMembers (extra ++ ms) := by
      simp only [normalMembers_eq_map, List.map_append] at hms ⊢
      rw [hms]
    rw [normalForm, normalForm, hmembers]

/-- The value `a` is written by `encode`, `b` is read from its normal form, and `a'` is written as
the same once more. -/
structure Codes {β : Type} (encode : α → Json) (read : Json → Except Error β) (a a' : α) (b : β) :
    Prop where
  alike : Alike (encode a) (encode a')
  notNull : (encode a).isNull = false
  reads : (encode a).Settles → read (encode a).settled = .ok b

theorem codes_text (s : String) :
    Codes .string (Slot.text []) s (Text.normal s) (Text.normal s) where
  alike := .string s
  notNull := rfl
  reads _ := by rw [settled_string]; rfl

theorem codes_composed {s : String} (hs : Text.normal s = s) :
    Codes .string (Slot.text []) s s s := by
  have hcodes := codes_text s
  rwa [hs] at hcodes

theorem readName_string {subject name : String} {known : String → Option α} {a : α}
    (h : known name = some a) : readName subject known (.string name) = .ok a := by
  simp only [readName, readWith, Slot.text, Slot.kept, readText, mapError_ok, ok_bind, h, pure_eq_ok]

theorem codes_name {subject : String} {known : String → Option α} {name : α → String} {a : α}
    (hname : Text.normal (name a) = name a) (hknown : known (name a) = some a) :
    Codes (fun a => .string (name a)) (readName subject known) a a a where
  alike := .refl trivial
  notNull := rfl
  reads _ := by rw [settled_string, hname, readName_string hknown]

theorem codes_flag (b : Bool) : Codes .bool (Slot.flag []) b b b where
  alike := .refl trivial
  notNull := rfl
  reads _ := by rw [settled_bool]; rfl

theorem codes_int_from (start : Int) {n : Int} (hn : Word.Holds n) :
    Codes ofInt (Slot.kept start readInt []) n n n where
  alike := .refl (isLiteral_toString_int n)
  notNull := rfl
  reads _ := by
    have hform : (ofInt n).normalForm = .ok (ofInt n) :=
      normalForm_number_eq_ok.2 ⟨_, canonicalNumber_toString_int n, rfl⟩
    rw [settled_eq hform, ofInt, Slot.kept, readInt, toInt64?_toString hn]
    simp

theorem codes_int {n : Int} (hn : Word.Holds n) : Codes ofInt (Slot.int []) n n n :=
  codes_int_from 0 hn

theorem codes_double {x : Double} (hx : x.isFinite = true) :
    Codes ofDouble (Slot.double []) x x.settled x.settled where
  alike := by
    refine ⟨Layout.isLiteral_decimal _ _, Layout.isLiteral_decimal _ _, fun _ => ?_⟩
    rw [ofDouble, ofDouble, normalForm, normalForm, canonicalNumber_document_settled]
  notNull := rfl
  reads _ := by
    obtain ⟨canonical, hcanonical, hread⟩ := canonicalNumber_document hx
    have hform : (ofDouble x).normalForm = .ok (.number canonical) :=
      normalForm_number_eq_ok.2 ⟨_, hcanonical, rfl⟩
    rw [settled_eq hform, Slot.double, Slot.kept, readDouble, hread]
    simp

section Places

variable {β : Type} {encode : α → Json} {settle : α → α} {value : α → β} {slot : Slot β}
  {name : String} {fs : List (Member σ)} {s t : σ} {ms ms' : List (String × Json)}

theorem Slot.optional_nil {j : Json} (h : j.isNull = false) :
    Slot.optional slot [] j = (slot [] j).map some := by
  cases j <;> first | rfl | cases h

theorem Codes.optional {a a' : α} {b : β} (h : Codes encode (slot []) a a' b) :
    Codes encode (Slot.optional slot []) a a' (some b) where
  alike := h.alike
  notNull := h.notNull
  reads hsettles := by
    rw [Slot.optional_nil ((isNull_settled _).trans h.notNull), h.reads hsettles, map_ok]

theorem Writes.of {set : σ → β → σ} {a a' : α} {b : β} (hcodes : Codes encode (slot []) a a' b)
    (h : Writes fs (set s b) ms ms' t) :
    Writes (.of name slot set :: fs) s ((name, encode a) :: ms) ((name, encode a') :: ms') t := by
  refine .cons hcodes.alike hcodes.notNull (fun hsettles => ?_) h
  simp only [Member.of, hcodes.reads hsettles, map_ok]

/-- A text that is left out when it is empty. -/
theorem Writes.ifText {set : σ → String → σ} {v : String} (hset : set s "" = s)
    (h : Writes fs (set s (Text.normal v)) ms ms' t) :
    Writes (.of name Slot.text set :: fs) s (Json.ifText name v ++ ms)
      (Json.ifText name (Text.normal v) ++ ms') t := by
  by_cases hv : v = ""
  · subst hv
    rw [Text.normal_eq_empty.2 rfl] at h ⊢
    rw [hset] at h
    exact .skip h
  · rw [Json.ifText, Json.ifText, if_neg hv, if_neg (mt Text.normal_eq_empty.1 hv)]
    exact .of (codes_text v) h

theorem Writes.ifSome {set : σ → Option β → σ} {v : Option α}
    (hcodes : ∀ a ∈ v, Codes encode (slot []) a (settle a) (value a)) (hset : set s none = s)
    (h : Writes fs (set s (v.map value)) ms ms' t) :
    Writes (.of name (Slot.optional slot) set :: fs) s (Json.ifSome name encode v ++ ms)
      (Json.ifSome name encode (v.map settle) ++ ms') t := by
  cases v with
  | none =>
      rw [Option.map_none, hset] at h
      exact .skip h
  | some a =>
      exact .of (hcodes a rfl).optional h

theorem Writes.ifSame {encode : β → Json} {set : σ → Option β → σ} {v : Option β}
    (hcodes : ∀ b ∈ v, Codes encode (slot []) b b b) (hset : set s none = s)
    (h : Writes fs (set s v) ms ms' t) :
    Writes (.of name (Slot.optional slot) set :: fs) s (Json.ifSome name encode v ++ ms)
      (Json.ifSome name encode v ++ ms') t := by
  have hsome : Writes (.of name (Slot.optional slot) set :: fs) s (Json.ifSome name encode v ++ ms)
      (Json.ifSome name encode (v.map fun b => b) ++ ms') t :=
    .ifSome hcodes hset (by rwa [Option.map_id'])
  rwa [Option.map_id'] at hsome

theorem Slot.items_settled {as : List α}
    (hcodes : ∀ a ∈ as, Codes encode (slot []) a (settle a) (value a))
    (hsettles : ∀ a ∈ as, (encode a).Settles) :
    Slot.items slot [] (as.map fun a => (encode a).settled) = .ok (as.map value) := by
  induction as with
  | nil => rfl
  | cons a as ih =>
      obtain ⟨ha, has⟩ := List.forall_mem_cons.1 hcodes
      obtain ⟨hsettle, hsettles⟩ := List.forall_mem_cons.1 hsettles
      have hrest := ih has hsettles
      have hhead : slot (([] : List (List Json)).filterMap List.head?) (encode a).settled =
          .ok (value a) := ha.reads hsettle
      rw [List.map_cons, Slot.items, hhead, ok_bind]
      simp only [List.map_nil, hrest, ok_bind, pure_eq_ok, List.map_cons]

theorem Slot.list_settled {as : List α}
    (hcodes : ∀ a ∈ as, Codes encode (slot []) a (settle a) (value a))
    (hsettles : (array (as.map encode)).Settles) :
    Slot.list slot [] (array (as.map encode)).settled = .ok (some (as.map value)) := by
  have hitems : ∀ a ∈ as, (encode a).Settles := by
    simpa using settles_array.1 hsettles
  rw [settled_array hsettles, List.map_map, Slot.list]
  have hread := Slot.items_settled hcodes hitems
  simp only [Slot.arraysOf, Function.comp_def, hread, map_ok]

theorem Writes.listOrNull {set : σ → Option (List β) → σ} {v : Option (List α)}
    (hcodes : ∀ as ∈ v, ∀ a ∈ as, Codes encode (slot []) a (settle a) (value a))
    (hset : set s none = s) (h : Writes fs (set s (v.map (·.map value))) ms ms' t) :
    Writes (.of name (Slot.list slot) set :: fs) s ((name, Json.listOrNull encode v) :: ms)
      ((name, Json.listOrNull encode (v.map (·.map settle))) :: ms') t := by
  cases v with
  | none =>
      rw [Option.map_none, hset] at h
      exact .null h
  | some as =>
      have has := hcodes as rfl
      refine .cons (.array fun a ha => (has a ha).alike) rfl (fun hsettles => ?_) h
      simp only [Member.of, Json.listOrNull, Slot.list_settled has hsettles, map_ok, Option.map_some]

def present : Option (List α) → Option (List α)
  | some (a :: as) => some (a :: as)
  | _ => none

theorem ifAny_of_present {v : Option (List α)} (h : present v = none) :
    Json.ifAny name encode v = [] := by
  match v with
  | none | some [] => rfl

theorem Writes.ifAny {set : σ → Option (List β) → σ} {v : Option (List α)}
    (hcodes : ∀ as ∈ v, ∀ a ∈ as, Codes encode (slot []) a (settle a) (value a))
    (hset : set s none = s) (h : Writes fs (set s ((present v).map (·.map value))) ms ms' t) :
    Writes (.of name (Slot.list slot) set :: fs) s (Json.ifAny name encode v ++ ms)
      (Json.ifAny name encode ((present v).map (·.map settle)) ++ ms') t := by
  match v with
  | none | some [] =>
      simp only [present, Option.map_none, hset] at h
      exact .skip h
  | some (a :: as) =>
      have has := hcodes (a :: as) rfl
      refine .cons (.array fun a ha => (has a ha).alike) rfl (fun hsettles => ?_) h
      simp only [Member.of, Slot.list_settled has hsettles, map_ok, present, Option.map_some]

theorem Writes.ifAnySame {encode : β → Json} {set : σ → Option (List β) → σ} {v : Option (List β)}
    (hcodes : ∀ bs ∈ v, ∀ b ∈ bs, Codes encode (slot []) b b b) (hset : set s none = s)
    (h : Writes fs (set s (present v)) ms ms' t) :
    Writes (.of name (Slot.list slot) set :: fs) s (Json.ifAny name encode v ++ ms)
      (Json.ifAny name encode (present v) ++ ms') t := by
  have hany : Writes (.of name (Slot.list slot) set :: fs) s (Json.ifAny name encode v ++ ms)
      (Json.ifAny name encode ((present v).map (·.map fun b => b)) ++ ms') t :=
    .ifAny hcodes hset (by simpa using h)
  simpa using hany

theorem codes_raw {a a' : α} (halike : Alike (encode a) (encode a'))
    (hnull : (encode a).isNull = false) :
    Codes encode (fun j => .ok j) a a' (encode a).settled :=
  ⟨halike, hnull, fun _ => rfl⟩

theorem Writes.raw {set : σ → Option Json → σ} {a a' : α} (halike : Alike (encode a) (encode a'))
    (hnull : (encode a).isNull = false) (h : Writes fs (set s (some (encode a).settled)) ms ms' t) :
    Writes (.of name Slot.raw set :: fs) s ((name, encode a) :: ms) ((name, encode a') :: ms') t :=
  .cons halike hnull (fun _ => rfl) h

theorem Writes.rawSome {set : σ → Option Json → σ} {v : Option α}
    (hcodes : ∀ a ∈ v, Alike (encode a) (encode (settle a)) ∧ (encode a).isNull = false)
    (hset : set s none = s) (h : Writes fs (set s (v.map fun a => (encode a).settled)) ms ms' t) :
    Writes (.of name Slot.raw set :: fs) s (Json.ifSome name encode v ++ ms)
      (Json.ifSome name encode (v.map settle) ++ ms') t := by
  cases v with
  | none =>
      rw [Option.map_none, hset] at h
      exact .skip h
  | some a =>
      obtain ⟨halike, hnull⟩ := hcodes a rfl
      exact .cons halike hnull (fun _ => rfl) h

end Places

theorem Writes.codes {fields : List (Member σ)} {start : σ} {encode : σ → Json} {a a' : σ}
    {ms ms' : List (String × Json)} (hsound : Sound fields) (ha : encode a = .object ms)
    (ha' : encode a' = .object ms') (h : Writes fields start ms ms' a') :
    Codes encode (Slot.record fields start []) a a' a' where
  alike := by
    rw [ha, ha']
    exact h.alike (List.forall_mem_nil _) (h.names_nodup hsound)
  notNull := by
    rw [ha]
    rfl
  reads hsettles := by
    rw [ha] at hsettles ⊢
    have hextra : Foreign fields [] := List.forall_mem_nil _
    exact readRecord_settled hsound h hextra (List.Perm.refl _) (h.names_nodup hsound) hsettles

/-- A record of which something else is read than it was written from. -/
theorem Writes.codes_self {β : Type} {fields : List (Member σ)} {start t : σ} {encode : β → Json}
    {a : β} {ms ms' : List (String × Json)} (hsound : Sound fields) (ha : encode a = .object ms)
    (h : Writes fields start ms ms' t) : Codes encode (Slot.record fields start []) a a t where
  alike := by
    rw [ha]
    exact .refl (everywhere_object.2 ⟨h.names_nodup hsound, h.proper⟩)
  notNull := by
    rw [ha]
    rfl
  reads hsettles := by
    rw [ha] at hsettles ⊢
    have hextra : Foreign fields [] := List.forall_mem_nil _
    exact readRecord_settled hsound h hextra (List.Perm.refl _) (h.names_nodup hsound) hsettles

/-- Fields of a node: none of them takes the place of the type. -/
structure SoundNode (fields : List (Member σ)) : Prop extends Sound fields where
  typeless : ∀ f ∈ fields, foldName f.name ≠ foldName "type"

theorem sound_typeFields : Sound typeFields where
  distinct := by simp [typeFields]
  plain := by simp [typeFields, Member.of]
  independent := List.pairwise_singleton _ _

theorem writes_typeFields (type : String) :
    Writes typeFields none [("type", .string type)] [("type", .string (Text.normal type))]
      (some (Text.normal type)) :=
  Writes.cons (.string type) rfl (fun _ => by rw [settled_string]; rfl) .nil

section Nodes

variable {fields : List (Member σ)} {s t : σ} {type : String} {ms ms' : List (String × Json)}

theorem SoundNode.foreign (hsound : SoundNode fields) :
    Foreign fields [("type", .string type)] := by
  intro m hm
  rw [List.mem_singleton.1 hm]
  have hplain : Text.normal "type" = "type" := Text.normal_eq_self (by decide)
  refine ⟨List.find?_eq_none.2 fun f hf => ?_, hplain⟩
  simpa using hsound.typeless f hf

theorem Writes.foldName_ne (hsound : SoundNode fields) (h : Writes fields s ms ms' t) :
    ∀ m ∈ ms, foldName m.1 ≠ foldName "type" ∧ Text.normal m.1 = m.1 := by
  intro m hm
  obtain ⟨f, hf, hname⟩ := List.mem_map.1 (h.sublist.subset (List.mem_map.2 ⟨m, hm, rfl⟩))
  rw [← hname]
  exact ⟨hsound.typeless f hf, Text.normal_eq_self (hsound.plain f hf)⟩

theorem Writes.tagged_nodup (hsound : SoundNode fields) (h : Writes fields s ms ms' t) :
    ((("type", Json.string type) :: ms).map (·.1)).Nodup := by
  refine List.nodup_cons.2 ⟨?_, h.names_nodup hsound.toSound⟩
  intro hmem
  obtain ⟨m, hm, hname⟩ := List.mem_map.1 hmem
  exact (h.foldName_ne hsound m hm).1 (by rw [hname])

theorem Writes.alike_tagged (hsound : SoundNode fields) (h : Writes fields s ms ms' t)
    (type : String) : Alike (tagged type ms) (tagged type ms') :=
  have hextra : ∀ m ∈ [("type", Json.string type)], m.2.Proper := by simp [Everywhere, IsTidy]
  h.alike hextra (h.tagged_nodup hsound)

theorem Writes.readRecord_tagged (hsound : SoundNode fields) (h : Writes fields s ms ms' t)
    (hsettles : (tagged type ms).Settles) :
    readRecord fields s (tagged type ms).settled = .ok t :=
  readRecord_settled hsound.toSound h hsound.foreign (List.Perm.refl _) (h.tagged_nodup hsound)
    hsettles

theorem Writes.readType_tagged (hsound : SoundNode fields) (h : Writes fields s ms ms' t)
    (htype : Text.normal type = type) (kind : String) (hsettles : (tagged type ms).Settles) :
    readType kind (tagged type ms).settled = .ok type := by
  have hforeign : Foreign typeFields ms := by
    intro m hm
    obtain ⟨hne, hplain⟩ := h.foldName_ne hsound m hm
    refine ⟨List.find?_eq_none.2 ?_, hplain⟩
    simpa [typeFields, Member.of] using fun heq => hne heq.symm
  have hread := readRecord_settled sound_typeFields (writes_typeFields type) hforeign
    (List.perm_append_singleton _ ms) (h.tagged_nodup hsound) hsettles
  rw [htype] at hread
  rw [readType, tagged, hread]

theorem Writes.readNode_tagged (hsound : SoundNode fields) (h : Writes fields s ms ms' t)
    {kind : String} {forms : Forms α} {read : Json → Except Error α} {a : α}
    (hsettles : (tagged type ms).Settles) (htype : Text.normal type = type)
    (hform : forms.lookup type = some read) (hread : read (tagged type ms).settled = .ok a) :
    readNode kind forms (some (tagged type ms).settled) = .ok a := by
  rw [readNode, h.readType_tagged hsound htype kind hsettles]
  simp only [hform, hread, mapError_ok]

end Nodes

end TenantQuery.Json
