import TenantQuery.Proofs.Json.Entries
import TenantQuery.Proofs.Json.Places

namespace TenantQuery.Json

open Outcome

variable {σ α β : Type}

/-- From `s` the members `ms` fill in the record `t`, field after field. -/
inductive Fills : List (Member σ) → σ → List (String × Json) → σ → Prop
  | nil {s : σ} : Fills [] s [] s
  | skip {f : Member σ} {fs : List (Member σ)} {s t : σ} {ms : List (String × Json)}
      (h : Fills fs s ms t) : Fills (f :: fs) s ms t
  | cons {f : Member σ} {fs : List (Member σ)} {s s' t : σ} {ms : List (String × Json)} {j : Json}
      (hwrite : f.write [] j s = .ok s') (h : Fills fs s' ms t) :
      Fills (f :: fs) s ((f.name, j) :: ms) t

namespace Fills

variable {fields fs : List (Member σ)} {s t : σ} {ms before after : List (String × Json)}

theorem last (h : Fills fs s (ms ++ []) t) : Fills fs s ms t := by
  rwa [List.append_nil] at h

theorem sublist (h : Fills fs s ms t) : (ms.map (·.1)).Sublist (fs.map (·.name)) := by
  induction h with
  | nil => exact List.Sublist.slnil
  | skip _ ih => exact ih.cons _
  | cons _ _ ih => exact ih.cons_cons _

theorem exists_field (h : Fills fs s ms t) {m : String × Json} (hm : m ∈ ms) :
    ∃ f ∈ fs, f.name = m.1 :=
  List.mem_map.1 (h.sublist.subset (List.mem_map_of_mem hm))

theorem names_nodup (hsound : Sound fields) (h : Fills fields s ms t) : (ms.map (·.1)).Nodup := by
  have hnames : (fields.map (·.name)).Nodup := by
    refine List.Nodup.of_map foldName ?_
    rw [List.map_map]
    exact hsound.distinct
  exact h.sublist.nodup hnames

theorem plain_names (hsound : Sound fields) (h : Fills fields s ms t) :
    ∀ m ∈ ms, Text.normal m.1 = m.1 := by
  intro m hm
  obtain ⟨f, hf, hname⟩ := h.exists_field hm
  rw [← hname]
  exact Text.normal_eq_self (hsound.plain f hf)

theorem takeMembers_eq (h : Fills fs s ms t)
    (hfields : ∀ f ∈ fs, member? fields f.name = some f) : takeMembers fields s ms = .ok t := by
  induction h with
  | nil => rfl
  | skip _ ih => exact ih (List.forall_mem_cons.1 hfields).2
  | cons hwrite _ ih =>
      obtain ⟨hmember, hfields⟩ := List.forall_mem_cons.1 hfields
      rw [takeMembers_cons, takeMember]
      simp only [hmember]
      rw [hwrite, ok_bind, ih hfields]

end Fills

theorem takeMembers_none {fields : List (Member σ)} {ms : List (String × Json)}
    (h : ∀ m ∈ ms, member? fields m.1 = none) (s : σ) : takeMembers fields s ms = .ok s := by
  induction ms with
  | nil => rfl
  | cons m ms ih =>
      obtain ⟨hmember, hms⟩ := List.forall_mem_cons.1 h
      rw [takeMembers_cons, takeMember, hmember, ok_bind, ih hms]

/-- A record is read from its members, whatever else stands before or after them. -/
theorem Fills.readRecord {fields : List (Member σ)} {s t : σ}
    {before ms after : List (String × Json)} (hsound : Sound fields) (h : Fills fields s ms t)
    (hbefore : ∀ m ∈ before, member? fields m.1 = none)
    (hafter : ∀ m ∈ after, member? fields m.1 = none)
    (hkeys : ((before ++ ms ++ after).map (·.1)).Nodup) :
    Json.readRecord fields s (object (before ++ ms ++ after)) = .ok t := by
  have hexact : ∀ m ∈ before ++ ms ++ after, Exact fields m.1 := by
    intro m hm f hf
    simp only [List.mem_append] at hm
    rcases hm with (hm | hm) | hm
    · rw [hbefore m hm] at hf
      cases hf
    · obtain ⟨g, hg, hname⟩ := h.exists_field hm
      rw [← hname, hsound.member?_name hg] at hf
      rw [← Option.some.inj hf, hname]
    · rw [hafter m hm] at hf
      cases hf
  change readFields fields [] s (before ++ ms ++ after) = .ok t
  rw [readFields_eq_takeMembers s hexact hkeys (by simp), takeMembers_append, takeMembers_append,
    takeMembers_none hbefore, ok_bind, h.takeMembers_eq fun _ => hsound.member?_name, ok_bind,
    takeMembers_none hafter]

theorem Fills.readRecord_object {fields : List (Member σ)} {s t : σ} {ms : List (String × Json)}
    (hsound : Sound fields) (h : Fills fields s ms t) :
    Json.readRecord fields s (object ms) = .ok t := by
  have hread := h.readRecord hsound (List.forall_mem_nil _) (List.forall_mem_nil _)
    (by simpa using h.names_nodup hsound)
  simpa using hread

/-- The value `a` is written by `encode`, and `b` is read from that. -/
structure Decodes (encode : α → Json) (read : Json → Except Error β) (a : α) (b : β) : Prop where
  notNull : (encode a).isNull = false
  reads : read (encode a) = .ok b

theorem decodes_text (s : String) : Decodes .string (Slot.text []) s s :=
  ⟨rfl, rfl⟩

theorem decodes_flag (b : Bool) : Decodes .bool (Slot.flag []) b b :=
  ⟨rfl, rfl⟩

theorem decodes_int_from (start : Int) {n : Int} (hn : Word.Holds n) :
    Decodes ofInt (Slot.kept start readInt []) n n where
  notNull := rfl
  reads := by
    rw [ofInt, Slot.kept, readInt, toInt64?_toString hn]
    simp

theorem decodes_int {n : Int} (hn : Word.Holds n) : Decodes ofInt (Slot.int []) n n :=
  decodes_int_from 0 hn

theorem decodes_double {x : Double} (hx : x.isFinite = true) :
    Decodes ofDouble (Slot.double []) x x where
  notNull := rfl
  reads := by
    rw [ofDouble, Slot.double, Slot.kept, readDouble, Layout.toDouble?_write _ hx]
    simp

section Places

variable {encode : α → Json} {value : α → β} {slot : Slot β} {name : String}
  {fs : List (Member σ)} {s t : σ} {ms : List (String × Json)}

theorem Fills.of {set : σ → β → σ} {a : α} {b : β} (h : Decodes encode (slot []) a b)
    (hrest : Fills fs (set s b) ms t) :
    Fills (.of name slot set :: fs) s ((name, encode a) :: ms) t :=
  .cons (by simp only [Member.of, h.reads, map_ok]) hrest

theorem Fills.ifText {set : σ → String → σ} {v : String} (hset : set s "" = s)
    (hrest : Fills fs (set s v) ms t) :
    Fills (.of name Slot.text set :: fs) s (Json.ifText name v ++ ms) t := by
  by_cases hv : v = ""
  · subst hv
    rw [hset] at hrest
    exact .skip hrest
  · rw [Json.ifText, if_neg hv]
    exact .of (decodes_text v) hrest

theorem Fills.ifSome {set : σ → Option β → σ} {v : Option α}
    (h : ∀ a ∈ v, Decodes encode (slot []) a (value a)) (hset : set s none = s)
    (hrest : Fills fs (set s (v.map value)) ms t) :
    Fills (.of name (Slot.optional slot) set :: fs) s (Json.ifSome name encode v ++ ms) t := by
  cases v with
  | none =>
      rw [Option.map_none, hset] at hrest
      exact .skip hrest
  | some a =>
      have ha := h a rfl
      refine .cons ?_ hrest
      simp only [Member.of, Slot.optional_nil ha.notNull, ha.reads, map_ok, Option.map_some]

theorem Fills.ifSame {encode : β → Json} {set : σ → Option β → σ} {v : Option β}
    (h : ∀ b ∈ v, Decodes encode (slot []) b b) (hset : set s none = s)
    (hrest : Fills fs (set s v) ms t) :
    Fills (.of name (Slot.optional slot) set :: fs) s (Json.ifSome name encode v ++ ms) t := by
  have hsame : Fills fs (set s (v.map fun b => b)) ms t := by rwa [Option.map_id']
  exact .ifSome h hset hsame

theorem Slot.list_map {as : List α} (h : ∀ a ∈ as, slot [] (encode a) = .ok (value a)) :
    Slot.list slot [] (array (as.map encode)) = .ok (some (as.map value)) := by
  have hitems : Slot.items slot [] (as.map encode) = .ok (as.map value) := by
    induction as with
    | nil => rfl
    | cons a as ih =>
        obtain ⟨ha, has⟩ := List.forall_mem_cons.1 h
        have hhead : slot (([] : List (List Json)).filterMap List.head?) (encode a) =
            .ok (value a) := ha
        rw [List.map_cons, Slot.items, hhead, ok_bind]
        simp only [List.map_nil, ih has, ok_bind, pure_eq_ok, List.map_cons]
  simp only [Slot.list, Slot.arraysOf, hitems, map_ok]

theorem Fills.listOrNull {set : σ → Option (List β) → σ} {v : Option (List α)}
    (h : ∀ as ∈ v, ∀ a ∈ as, slot [] (encode a) = .ok (value a))
    (hrest : Fills fs (set s (v.map (·.map value))) ms t) :
    Fills (.of name (Slot.list slot) set :: fs) s ((name, Json.listOrNull encode v) :: ms) t := by
  cases v with
  | none => exact .cons rfl hrest
  | some as =>
      refine .cons ?_ hrest
      simp only [Member.of, Json.listOrNull, Slot.list_map (h as rfl), map_ok, Option.map_some]

theorem Fills.listSame {encode : β → Json} {set : σ → Option (List β) → σ} {v : Option (List β)}
    (h : ∀ bs ∈ v, ∀ b ∈ bs, slot [] (encode b) = .ok b) (hrest : Fills fs (set s v) ms t) :
    Fills (.of name (Slot.list slot) set :: fs) s ((name, Json.listOrNull encode v) :: ms) t := by
  have hsame : Fills fs (set s (v.map (·.map fun b => b))) ms t := by simpa using hrest
  exact .listOrNull h hsame

theorem Fills.ifAny {set : σ → Option (List β) → σ} {v : Option (List α)}
    (h : ∀ as ∈ v, ∀ a ∈ as, slot [] (encode a) = .ok (value a)) (hset : set s none = s)
    (hrest : Fills fs (set s ((present v).map (·.map value))) ms t) :
    Fills (.of name (Slot.list slot) set :: fs) s (Json.ifAny name encode v ++ ms) t := by
  match v with
  | none | some [] =>
      simp only [present, Option.map_none, hset] at hrest
      exact .skip hrest
  | some (a :: as) =>
      refine .cons ?_ hrest
      simp only [Member.of, Slot.list_map (h (a :: as) rfl), map_ok, present, Option.map_some]

theorem Fills.ifAnySame {encode : β → Json} {set : σ → Option (List β) → σ} {v : Option (List β)}
    (h : ∀ bs ∈ v, ∀ b ∈ bs, slot [] (encode b) = .ok b) (hset : set s none = s)
    (hrest : Fills fs (set s (present v)) ms t) :
    Fills (.of name (Slot.list slot) set :: fs) s (Json.ifAny name encode v ++ ms) t := by
  have hsame : Fills fs (set s ((present v).map (·.map fun b => b))) ms t := by simpa using hrest
  exact .ifAny h hset hsame

theorem Fills.raw {set : σ → Option Json → σ} {j : Json} (hrest : Fills fs (set s (some j)) ms t) :
    Fills (.of name Slot.raw set :: fs) s ((name, j) :: ms) t :=
  .cons rfl hrest

theorem Fills.rawSome {set : σ → Option Json → σ} {v : Option α} (hset : set s none = s)
    (hrest : Fills fs (set s (v.map encode)) ms t) :
    Fills (.of name Slot.raw set :: fs) s (Json.ifSome name encode v ++ ms) t := by
  cases v with
  | none =>
      rw [Option.map_none, hset] at hrest
      exact .skip hrest
  | some a => exact .cons rfl hrest

theorem Fills.rawItems {set : σ → Option (List Json) → σ} {v : Option (List α)}
    (hrest : Fills fs (set s (v.map (·.map encode))) ms t) :
    Fills (.of name Slot.rawItems set :: fs) s ((name, Json.listOrNull encode v) :: ms) t :=
  .listOrNull (fun _ _ _ _ => rfl) hrest

theorem Fills.ifAnyRaw {set : σ → Option (List Json) → σ} {v : Option (List α)}
    (hset : set s none = s) (hrest : Fills fs (set s ((present v).map (·.map encode))) ms t) :
    Fills (.of name Slot.rawItems set :: fs) s (Json.ifAny name encode v ++ ms) t :=
  .ifAny (fun _ _ _ _ => rfl) hset hrest

end Places

section Again

variable {encode : α → Json} {retain : α → α}

theorem map_retained {as : List α} (h : ∀ a ∈ as, encode (retain a) = encode a) :
    (as.map retain).map encode = as.map encode := by
  rw [List.map_map]
  exact List.map_congr_left h

theorem listOrNull_retained {v : Option (List α)}
    (h : ∀ as ∈ v, ∀ a ∈ as, encode (retain a) = encode a) :
    listOrNull encode (v.map (·.map retain)) = listOrNull encode v := by
  cases v with
  | none => rfl
  | some as => rw [Option.map_some, listOrNull, listOrNull, map_retained (h as rfl)]

/-- An empty list is left out like one that is absent. -/
theorem ifAny_present (name : String) (v : Option (List α)) :
    ifAny name encode (present v) = ifAny name encode v := by
  match v with
  | none | some [] | some (_ :: _) => rfl

theorem ifAny_retained {name : String} {v : Option (List α)}
    (h : ∀ as ∈ v, ∀ a ∈ as, encode (retain a) = encode a) :
    ifAny name encode ((present v).map (·.map retain)) = ifAny name encode v := by
  match v with
  | none | some [] => rfl
  | some (a :: as) =>
      have hmap := map_retained (h (a :: as) rfl)
      rw [List.map_cons] at hmap
      simp only [present, Option.map_some, List.map_cons, ifAny, hmap]

theorem ifSome_retained {name : String} {v : Option α}
    (h : ∀ a ∈ v, encode (retain a) = encode a) :
    ifSome name encode (v.map retain) = ifSome name encode v := by
  cases v with
  | none => rfl
  | some a => rw [Option.map_some, ifSome, ifSome, h a rfl]

end Again

theorem Fills.decodes {fields : List (Member σ)} {start t : σ} {encode : α → Json} {a : α}
    {ms : List (String × Json)} (hsound : Sound fields) (ha : encode a = .object ms)
    (h : Fills fields start ms t) : Decodes encode (Slot.record fields start []) a t where
  notNull := by
    rw [ha]
    rfl
  reads := by
    rw [ha]
    exact h.readRecord_object hsound

/-- What is its own normal form is read from its normal form. -/
theorem Decodes.codes {encode : α → Json} {read : Json → Except Error β} {a : α} {b : β}
    (h : Decodes encode read a b) (hproper : (encode a).Proper)
    (hform : (encode a).normalForm = .ok (encode a)) : Codes encode read a a b :=
  ⟨.refl hproper, h.notNull, fun _ => by rw [settled_eq hform, h.reads]⟩

theorem write_of_takeMembers {fields : List (Member σ)} {ms : List (String × Json)} {s t : σ}
    (h : takeMembers fields s ms = .ok t) {m : String × Json} (hm : m ∈ ms) {f : Member σ}
    (hf : member? fields m.1 = some f) : ∃ s' t', f.write [] m.2 s' = .ok t' := by
  induction ms generalizing s with
  | nil => cases hm
  | cons n ms ih =>
      rw [takeMembers_cons] at h
      obtain ⟨s', hs', h⟩ := bind_eq_ok.1 h
      rcases List.mem_cons.1 hm with rfl | hm
      · rw [takeMember, hf] at hs'
        exact ⟨s, s', hs'⟩
      · exact ih h hm

theorem Sound.exact {fields : List (Member σ)} (hsound : Sound fields) {key : String}
    (h : key ∈ fields.map (·.name)) : Exact fields key := by
  intro f hf
  obtain ⟨g, hg, hname⟩ := List.mem_map.1 h
  rw [← hname, hsound.member?_name hg] at hf
  rw [← Option.some.inj hf, hname]

theorem exact_of_none {fields : List (Member σ)} {key : String} (h : member? fields key = none) :
    Exact fields key := by
  intro f hf
  rw [h] at hf
  cases hf

/-- Each member of a record that is read is one that its place takes. -/
theorem slot_of_readRecord {fields : List (Member σ)} {members : List (String × Json)} {s t : σ}
    (hsound : Sound fields) (hkeys : (members.map (·.1)).Nodup)
    (hexact : ∀ m ∈ members, Exact fields m.1) (h : readRecord fields s (object members) = .ok t)
    {name : String} {slot : Slot β} {set : σ → β → σ} (hfield : Member.of name slot set ∈ fields)
    {j : Json} (hj : (name, j) ∈ members) : ∃ b, slot [] j = .ok b := by
  have hempty : ∀ m ∈ members, m.1 ∉ ([] : List (String × Json)).map (·.1) := by simp
  have htake : takeMembers fields s members = .ok t := by
    rw [← readFields_eq_takeMembers s hexact hkeys hempty]
    exact h
  have hmember := hsound.member?_name hfield
  simp only [Member.of] at hmember
  obtain ⟨s', t', hwrite⟩ := write_of_takeMembers htake hj hmember
  obtain ⟨b, hb, -⟩ := map_eq_ok.1 hwrite
  exact ⟨b, hb⟩

theorem slot_of_readRecord_settled {fields : List (Member σ)} {members : List (String × Json)}
    {s t : σ} (hsound : Sound fields) (hkeys : (members.map (·.1)).Nodup)
    (hnames : ∀ m ∈ members, Text.normal m.1 = m.1 ∧ Exact fields m.1)
    (hsettles : (object members).Settles)
    (h : readRecord fields s (object members).settled = .ok t) {name : String} {slot : Slot β}
    {set : σ → β → σ} (hfield : Member.of name slot set ∈ fields) {j : Json}
    (hj : (name, j) ∈ members) (hnull : j.isNull = false) : ∃ b, slot [] j.settled = .ok b := by
  have hperm := perm_sortByUnits (kept members)
  have hnodup := ((hperm.map Prod.fst).nodup_iff).2 ((settles_object hkeys).1 hsettles).2
  rw [settled_object hkeys hsettles] at h
  refine slot_of_readRecord hsound hnodup (fun m hm => ?_) h hfield
    (hperm.mem_iff.2 (mem_kept.2 ⟨_, hj, by rwa [isNull_settled], ?_⟩))
  · obtain ⟨n, hn, -, rfl⟩ := mem_kept.1 (hperm.mem_iff.1 hm)
    rw [(hnames n hn).1]
    exact (hnames n hn).2
  · rw [(hnames _ hj).1]

theorem slot_of_list {slot : Slot β} {js : List Json} {v : Option (List β)}
    (h : Slot.list slot [] (array js) = .ok v) : ∀ j ∈ js, ∃ b, slot [] j = .ok b := by
  rw [Slot.list, Slot.arraysOf] at h
  obtain ⟨bs, hbs, -⟩ := map_eq_ok.1 h
  clear h
  induction js generalizing bs with
  | nil => simp
  | cons j js ih =>
      rw [Slot.items] at hbs
      obtain ⟨b, hb, hbs⟩ := bind_eq_ok.1 hbs
      obtain ⟨bs', hbs', -⟩ := bind_eq_ok.1 hbs
      exact List.forall_mem_cons.2 ⟨⟨b, hb⟩, ih bs' hbs'⟩

theorem decodes_entries {entries : List (String × String)} (h : Ordered entries) :
    Decodes entriesObject (Slot.map Slot.text []) entries (some entries) where
  notNull := rfl
  reads := by
    simp only [entriesObject, Slot.map, Slot.optional, membersOf, List.takeWhile_nil,
      List.nil_append, entries_texts, map_ok, sortMembers_of_ordered h]

section Settling

variable {encode : α → Json} {name : String}

def AllSettle (ms : List (String × Json)) : Prop :=
  ∀ m ∈ ms, m.2.Settles

attribute [simp] settles_string

@[simp] theorem settles_null : null.Settles :=
  ⟨_, rfl⟩

@[simp] theorem settles_bool (b : Bool) : (bool b).Settles :=
  ⟨_, rfl⟩

@[simp] theorem settles_ofInt (n : Int) : (ofInt n).Settles :=
  ⟨_, normalForm_number_eq_ok.2 ⟨_, canonicalNumber_toString_int n, rfl⟩⟩

theorem settles_ofDouble {x : Double} (hx : x.isFinite = true) : (ofDouble x).Settles := by
  obtain ⟨canonical, hcanonical, -⟩ := canonicalNumber_document hx
  exact ⟨_, normalForm_number_eq_ok.2 ⟨_, hcanonical, rfl⟩⟩

@[simp] theorem settles_listOrNull {v : Option (List α)} :
    (listOrNull encode v).Settles ↔ ∀ as ∈ v, ∀ a ∈ as, (encode a).Settles := by
  cases v with
  | none => simp [listOrNull]
  | some as => simp [listOrNull, settles_array]

@[simp] theorem allSettle_nil : AllSettle [] :=
  List.forall_mem_nil _

@[simp] theorem allSettle_cons {m : String × Json} {ms : List (String × Json)} :
    AllSettle (m :: ms) ↔ m.2.Settles ∧ AllSettle ms :=
  List.forall_mem_cons

@[simp] theorem allSettle_append {ms ns : List (String × Json)} :
    AllSettle (ms ++ ns) ↔ AllSettle ms ∧ AllSettle ns :=
  List.forall_mem_append

@[simp] theorem allSettle_ifSome {v : Option α} :
    AllSettle (ifSome name encode v) ↔ ∀ a ∈ v, (encode a).Settles := by
  cases v <;> simp [ifSome]

@[simp] theorem allSettle_ifAny {v : Option (List α)} :
    AllSettle (ifAny name encode v) ↔ ∀ as ∈ v, ∀ a ∈ as, (encode a).Settles := by
  match v with
  | none | some [] => simp [ifAny]
  | some (a :: as) => simp [ifAny, settles_array]

@[simp] theorem allSettle_ifText {v : String} : AllSettle (ifText name v) := by
  unfold ifText
  split <;> simp

end Settling

/-- An object whose names are plain has a normal form if and only if its members have. -/
theorem settles_of_plain {members : List (String × Json)} (hkeys : (members.map (·.1)).Nodup)
    (hplain : ∀ m ∈ members, Text.normal m.1 = m.1) :
    (object members).Settles ↔ AllSettle members := by
  refine (settles_object hkeys).trans (and_iff_left ?_)
  have hnames : ((members.filter fun m => !m.2.settled.isNull).map (·.1)).Nodup :=
    (List.filter_sublist.map _).nodup hkeys
  have hsame : (kept members).map (·.1) =
      (members.filter fun m => !m.2.settled.isNull).map (·.1) := by
    rw [kept, List.map_map]
    exact List.map_congr_left fun m hm => hplain m (List.mem_of_mem_filter hm)
  rwa [hsame]

theorem settles_of_names {members : List (String × Json)}
    (hnames : Sound.names (members.map (·.1)) = true) :
    (object members).Settles ↔ AllSettle members :=
  settles_of_plain (nodup_of_names hnames) fun _ hm =>
    plain_of_names hnames _ (List.mem_map_of_mem hm)

theorem Fills.settles_iff {fields : List (Member σ)} {s t : σ} {ms : List (String × Json)}
    (hsound : Sound fields) (h : Fills fields s ms t) : (object ms).Settles ↔ AllSettle ms :=
  settles_of_plain (h.names_nodup hsound) (h.plain_names hsound)

section Nodes

variable {fields : List (Member σ)} {s t : σ} {type : String} {ms : List (String × Json)}

theorem SoundNode.member?_type (hsound : SoundNode fields) : member? fields "type" = none :=
  List.find?_eq_none.2 fun f hf => by simpa using hsound.typeless f hf

theorem Fills.foldName_ne (hsound : SoundNode fields) (h : Fills fields s ms t) :
    ∀ m ∈ ms, foldName m.1 ≠ foldName "type" := by
  intro m hm
  obtain ⟨f, hf, hname⟩ := h.exists_field hm
  rw [← hname]
  exact hsound.typeless f hf

theorem Fills.tagged_nodup (hsound : SoundNode fields) (h : Fills fields s ms t) (type : String) :
    ((("type", Json.string type) :: ms).map (·.1)).Nodup := by
  refine List.nodup_cons.2 ⟨fun hmem => ?_, h.names_nodup hsound.toSound⟩
  obtain ⟨m, hm, hname⟩ := List.mem_map.1 hmem
  exact h.foldName_ne hsound m hm (by rw [hname])

/-- The members of a node are read without regard to its type. -/
theorem Fills.readRecord_tagged (hsound : SoundNode fields) (h : Fills fields s ms t) :
    Json.readRecord fields s (tagged type ms) = .ok t := by
  have hbefore : ∀ m ∈ [("type", Json.string type)], member? fields m.1 = none :=
    List.forall_mem_singleton.2 hsound.member?_type
  have hkeys := h.tagged_nodup hsound type
  have hread := h.readRecord hsound.toSound hbefore (List.forall_mem_nil _) (by simpa using hkeys)
  rwa [List.append_nil] at hread

theorem Fills.readType_tagged (hsound : SoundNode fields) (h : Fills fields s ms t)
    (kind : String) : readType kind (tagged type ms) = .ok type := by
  have htype : Fills typeFields none [("type", .string type)] (some type) := .cons rfl .nil
  have hafter : ∀ m ∈ ms, member? typeFields m.1 = none := by
    intro m hm
    refine List.find?_eq_none.2 ?_
    simpa [typeFields, Member.of] using fun heq => h.foldName_ne hsound m hm heq.symm
  have hread := htype.readRecord sound_typeFields (List.forall_mem_nil _) hafter
    (h.tagged_nodup hsound type)
  rw [readType, tagged]
  simp only [List.nil_append, List.cons_append] at hread
  rw [hread]

theorem Fills.settles_tagged (hsound : SoundNode fields) (h : Fills fields s ms t) :
    (tagged type ms).Settles ↔ AllSettle ms := by
  have htype : Text.normal "type" = "type" := Text.normal_eq_self (by decide)
  rw [tagged, settles_of_plain (h.tagged_nodup hsound type)
    (List.forall_mem_cons.2 ⟨htype, h.plain_names hsound.toSound⟩), allSettle_cons,
    and_iff_right (settles_string type)]

theorem Fills.solid_tagged (hsound : SoundNode fields) (h : Fills fields s ms t)
    (hproper : ∀ m ∈ ms, m.2.Proper) : Solid (tagged type ms) :=
  ⟨rfl, everywhere_object.2 ⟨h.tagged_nodup hsound type,
    List.forall_mem_cons.2 ⟨(solid_string type).proper, hproper⟩⟩⟩

theorem Fills.readNode_tagged (hsound : SoundNode fields) (h : Fills fields s ms t)
    {kind : String} {forms : Forms α} {read : Json → Except Error α} {a : α}
    (hform : forms.lookup type = some read) (hread : read (tagged type ms) = .ok a) :
    readNode kind forms (some (tagged type ms)) = .ok a := by
  rw [readNode, h.readType_tagged hsound kind]
  simp only [hform, hread, mapError_ok]

end Nodes

/-- The node `a` is written by `encode`, `a'` is read from that, and `a'` is written as the same
once more. The reader needs as much fuel as the node is deep. The node has a normal form if
its members have. -/
structure Restores (encode : α → Json) (read : Nat → Option Json → Except Error α) (a a' : α) :
    Prop where
  notNull : (encode a).isNull = false
  again : encode a' = encode a
  reads : ∀ fuel, (encode a).depth < fuel → read fuel (some (encode a)) = .ok a'
  settles_iff : ∀ type ms, encode a = tagged type ms → ((encode a).Settles ↔ AllSettle ms)

section Restored

variable {encode : α → Json} {read : Nat → Option Json → Except Error α} {retain : α → α}

theorem Restores.settles {a a' : α} (h : Restores encode read a a') {type : String}
    {ms : List (String × Json)} (ha : encode a = tagged type ms) (hms : AllSettle ms) :
    (encode a).Settles :=
  (h.settles_iff type ms ha).2 hms

/-- A node is read back when the form that its type names takes its members, which are less deep
than the node. -/
theorem Restores.of {kind : String} {forms : Nat → Forms α} {fields : List (Member σ)} {w : σ}
    {type : String} {ms : List (String × Json)} {a a' : α}
    (hsound : SoundNode fields) (start : σ)
    (hnode : ∀ fuel members, read (fuel + 1) (some (object members)) =
      readNode kind (forms fuel) (some (object members)))
    (ha : encode a = tagged type ms) (hagain : encode a' = encode a) (h : Fills fields start ms w)
    (hform : ∀ fuel, ∃ readForm, (forms fuel).lookup type = some readForm ∧
      ((∀ m ∈ ms, m.2.depth < fuel) → ∀ j, readRecord fields start j = .ok w →
        readForm j = .ok a')) :
    Restores encode read a a' where
  notNull := by
    rw [ha]
    rfl
  again := hagain
  reads fuel hfuel := by
    rw [ha] at hfuel ⊢
    cases fuel with
    | zero => omega
    | succ fuel =>
        obtain ⟨readForm, hlookup, hread⟩ := hform fuel
        have hmembers : ∀ m ∈ ms, m.2.depth < fuel := by
          intro m hm
          have := depth_lt_of_mem_tagged type hm
          omega
        rw [tagged, hnode, ← tagged]
        exact h.readNode_tagged hsound hlookup
          (hread hmembers _ (h.readRecord_tagged hsound))
  settles_iff type' ms' ha' := by
    rw [ha] at ha' ⊢
    cases ha'
    exact h.settles_tagged hsound

/-- The fuel that a reader takes from the depth of what it reads is enough. -/
theorem Restores.read_some {a a' : α} (h : Restores encode read a a') :
    read (depthOf (some (encode a)) + 1) (some (encode a)) = .ok a' :=
  h.reads _ (Nat.lt_succ_self _)

theorem readNodes_map_encode {readOne : Option Json → Except Error α} {v : Option (List α)}
    (h : ∀ as ∈ v, ∀ a ∈ as, readOne (some (encode a)) = .ok (retain a)) :
    readNodes readOne (v.map (·.map encode)) = .ok (v.map (·.map retain)) := by
  have hread (as : List α) (has : ∀ a ∈ as, readOne (some (encode a)) = .ok (retain a)) :
      (as.map encode).mapM (fun j => readOne (some j)) = .ok (as.map retain) := by
    induction as with
    | nil => rfl
    | cons a as ih =>
        obtain ⟨ha, has⟩ := List.forall_mem_cons.1 has
        simp only [List.map_cons, List.mapM_cons, ha, ih has, ok_bind, pure_eq_ok]
  cases v with
  | none => rfl
  | some as => rw [Option.map_some, readNodes, hread as (h as rfl), map_ok, Option.map_some]

theorem readNodes_restored {v : Option (List α)} {fuel : Nat}
    (h : ∀ as ∈ v, ∀ a ∈ as, Restores encode read a (retain a))
    (hdepth : (listOrNull encode v).depth < fuel) :
    readNodes (read fuel) (v.map (·.map encode)) = .ok (v.map (·.map retain)) := by
  refine readNodes_map_encode fun as has a ha => (h as has a ha).reads fuel ?_
  rw [show v = some as from has] at hdepth
  exact Nat.lt_trans (depth_lt_of_mem_array (List.mem_map_of_mem ha)) hdepth

theorem readOptionalNode_restored {readOne : Option Json → Except Error α} {v : Option α}
    (h : ∀ a ∈ v, (encode a).isNull = false ∧ readOne (some (encode a)) = .ok (retain a)) :
    readOptionalNode readOne (v.map encode) = .ok (v.map retain) := by
  cases v with
  | none => rfl
  | some a =>
      obtain ⟨hnull, hread⟩ := h a rfl
      rw [Option.map_some, Option.map_some]
      cases hj : encode a with
      | null => simp [hj, isNull] at hnull
      | bool _ | number _ | string _ | array _ | object _ =>
          rw [hj] at hread
          simp only [readOptionalNode, hread, map_ok]

theorem readNodes_same {readOne : Option Json → Except Error α} {v : Option (List α)}
    (h : ∀ as ∈ v, ∀ a ∈ as, readOne (some (encode a)) = .ok a) :
    readNodes readOne (v.map (·.map encode)) = .ok v := by
  have hread : readNodes readOne (v.map (·.map encode)) = .ok (v.map (·.map id)) :=
    readNodes_map_encode h
  simpa using hread

theorem readOptionalNode_same {readOne : Option Json → Except Error α} {v : Option α}
    (h : ∀ a ∈ v, (encode a).isNull = false ∧ readOne (some (encode a)) = .ok a) :
    readOptionalNode readOne (v.map encode) = .ok v := by
  have hread : readOptionalNode readOne (v.map encode) = .ok (v.map id) :=
    readOptionalNode_restored h
  simpa using hread

end Restored

end TenantQuery.Json
