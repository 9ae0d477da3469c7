import TenantQuery.Proofs.Json.Node

namespace TenantQuery.Json

open Outcome

/-- A value that stands in a place for itself: it is not null, and it is tidy at every depth. -/
structure Solid (j : Json) : Prop where
  notNull : j.isNull = false
  proper : j.Proper

theorem Solid.spelled_settled {j : Json} (h : Solid j) (hsettles : j.Settles) : j.settled.Spelled :=
  (h.proper.spelled.proper hsettles.normalForm_eq).spelled

theorem nodup_of_names {names : List String} (h : Sound.names names = true) : names.Nodup := by
  rw [Sound.names, Bool.and_eq_true, decide_eq_true_eq] at h
  exact .of_map foldName h.1

theorem plain_of_names {names : List String} (h : Sound.names names = true) :
    ∀ name ∈ names, Text.normal name = name := by
  rw [Sound.names, Bool.and_eq_true, List.all_eq_true] at h
  exact fun name hname => Text.normal_eq_self (h.2 name hname)

theorem solid_of_names {members : List (String × Json)}
    (hnames : Sound.names (members.map (·.1)) = true) (hproper : ∀ m ∈ members, m.2.Proper) :
    Solid (object members) :=
  ⟨rfl, everywhere_object.2 ⟨nodup_of_names hnames, hproper⟩⟩

theorem proper_listOrNull {α : Type} {encode : α → Json} {v : Option (List α)}
    (h : ∀ as ∈ v, ∀ a ∈ as, (encode a).Proper) : (listOrNull encode v).Proper := by
  cases v with
  | none => trivial
  | some as =>
      refine everywhere_array.2 ⟨trivial, fun j hj => ?_⟩
      obtain ⟨a, ha, rfl⟩ := List.mem_map.1 hj
      exact h as rfl a ha

/-- The members of a record: those of its places that are not empty. -/
def filled (places : List (String × Option Json)) : List (String × Json) :=
  places.filterMap fun p => p.2.map fun j => (p.1, j)

section Places

variable {places places' : List (String × Option Json)}

theorem filled_cons (name : String) (v : Option Json) :
    filled ((name, v) :: places) = (v.toList.map fun j => (name, j)) ++ filled places := by
  cases v <;> rfl

theorem mem_filled {m : String × Json} :
    m ∈ filled places ↔ ∃ p ∈ places, p.1 = m.1 ∧ m.2 ∈ p.2 := by
  obtain ⟨name, j⟩ := m
  simp only [filled, List.mem_filterMap, Option.map_eq_some_iff, Prod.mk.injEq]
  constructor
  · rintro ⟨p, hp, j', hj', hname, rfl⟩
    exact ⟨p, hp, hname, hj'⟩
  · rintro ⟨p, hp, hname, hj⟩
    exact ⟨p, hp, j, hj, hname, rfl⟩

/-- Places that are told apart by plain names. -/
structure Orderly (places : List (String × Option Json)) : Prop where
  nodup : (places.map (·.1)).Nodup
  plain : ∀ p ∈ places, Text.normal p.1 = p.1
  solid : ∀ p ∈ places, ∀ j ∈ p.2, Solid j

theorem Orderly.of (hnames : Sound.names (places.map (·.1)) = true)
    (hsolid : ∀ p ∈ places, ∀ j ∈ p.2, Solid j) : Orderly places := by
  exact ⟨nodup_of_names hnames,
    fun _ hp => plain_of_names hnames _ (List.mem_map_of_mem hp), hsolid⟩

theorem Orderly.tail {p : String × Option Json} (h : Orderly (p :: places)) : Orderly places :=
  ⟨(List.nodup_cons.1 h.nodup).2, (List.forall_mem_cons.1 h.plain).2,
    (List.forall_mem_cons.1 h.solid).2⟩

theorem Orderly.nodup_filled (h : Orderly places) : ((filled places).map (·.1)).Nodup := by
  have hsublist : ((filled places).map (·.1)).Sublist (places.map (·.1)) := by
    clear h
    induction places with
    | nil => exact .slnil
    | cons p places ih =>
        obtain ⟨name, v⟩ := p
        cases v with
        | none => exact ih.cons _
        | some j => exact ih.cons_cons _
  exact hsublist.nodup h.nodup

theorem Orderly.settles (h : Orderly places) (hsettles : (object (filled places)).Settles) :
    ∀ p ∈ places, ∀ j ∈ p.2, j.Settles := fun p hp j hj =>
  ((settles_object h.nodup_filled).1 hsettles).1 (p.1, j) (mem_filled.2 ⟨p, hp, rfl, hj⟩)

theorem Orderly.object_solid (h : Orderly places) : Solid (object (filled places)) := by
  refine ⟨rfl, everywhere_object.2 ⟨h.nodup_filled, fun m hm => ?_⟩⟩
  obtain ⟨p, hp, -, hj⟩ := mem_filled.1 hm
  exact (h.solid p hp m.2 hj).proper

theorem Orderly.kept_cons {name : String} {v : Option Json} (h : Orderly ((name, v) :: places)) :
    kept (filled ((name, v) :: places)) =
      ((v.map settled).toList.map fun j => (name, j)) ++ kept (filled places) := by
  have hplain : Text.normal name = name := h.plain (name, v) List.mem_cons_self
  cases v with
  | none => simp [filled_cons]
  | some j =>
      have hnull : j.isNull = false := (h.solid (name, some j) List.mem_cons_self j rfl).notNull
      rw [filled_cons, kept_append]
      simp [kept, hnull, hplain]

theorem Orderly.name_mem_of_mem_kept (h : Orderly places) {m : String × Json}
    (hm : m ∈ kept (filled places)) : m.1 ∈ places.map (·.1) := by
  obtain ⟨n, hn, -, rfl⟩ := mem_kept.1 hm
  obtain ⟨p, hp, hname, -⟩ := mem_filled.1 hn
  rw [← hname, h.plain p hp]
  exact List.mem_map.2 ⟨p, hp, rfl⟩

/-- Members with a name of their own are told apart from those that follow. -/
theorem perm_cons_split {name : String} {js js' : List Json} {ms ms' : List (String × Json)}
    (hms : ∀ m ∈ ms, m.1 ≠ name) (hms' : ∀ m ∈ ms', m.1 ≠ name)
    (h : (js.map (fun j => (name, j)) ++ ms).Perm (js'.map (fun j => (name, j)) ++ ms')) :
    js.Perm js' ∧ ms.Perm ms' := by
  have hown (ks : List Json) (ns : List (String × Json)) (hns : ∀ m ∈ ns, m.1 ≠ name) :
      (ks.map (fun j => (name, j)) ++ ns).filter (fun m => m.1 = name) =
        ks.map (fun j => (name, j)) := by
    rw [List.filter_append, List.filter_eq_self.2 (by simp),
      List.filter_eq_nil_iff.2 (by simpa using hns), List.append_nil]
  have hrest (ks : List Json) (ns : List (String × Json)) (hns : ∀ m ∈ ns, m.1 ≠ name) :
      (ks.map (fun j => (name, j)) ++ ns).filter (fun m => m.1 ≠ name) = ns := by
    rw [List.filter_append, List.filter_eq_nil_iff.2 (by simp),
      List.filter_eq_self.2 (by simpa using hns), List.nil_append]
  constructor
  · have hfilter := h.filter fun m => m.1 = name
    rw [hown js ms hms, hown js' ms' hms'] at hfilter
    simpa using hfilter.map Prod.snd
  · have hfilter := h.filter fun m => m.1 ≠ name
    rwa [hrest js ms hms, hrest js' ms' hms'] at hfilter

theorem eq_of_perm_toList {v v' : Option Json} (h : v.toList.Perm v'.toList) : v = v' := by
  cases v with
  | none => cases v' with
    | none => rfl
    | some j' => exact absurd h.length_eq (by simp)
  | some j => cases v' with
    | none => exact absurd h.length_eq (by simp)
    | some j' => simpa using h

/-- Two places of which each says in normal form what the other says. -/
structure Agree (v v' : Option Json) : Prop where
  settles : ∀ j ∈ v, j.Settles
  settles' : ∀ j ∈ v', j.Settles
  settled_eq : v.map settled = v'.map settled

theorem Orderly.agree_of_perm (h : Orderly places) (h' : Orderly places')
    (hnames : places.map (·.1) = places'.map (·.1))
    (hsettles : ∀ p ∈ places, ∀ j ∈ p.2, j.Settles) (hsettles' : ∀ p ∈ places', ∀ j ∈ p.2, j.Settles)
    (hperm : (kept (filled places)).Perm (kept (filled places'))) :
    List.Forall₂ (fun p p' => Agree p.2 p'.2) places places' := by
  induction places generalizing places' with
  | nil =>
      rw [List.map_nil, eq_comm, List.map_eq_nil_iff] at hnames
      rw [hnames]
      exact .nil
  | cons p places ih =>
      obtain _ | ⟨p', places'⟩ := places'
      · cases hnames
      obtain ⟨name, v⟩ := p
      obtain ⟨name', v'⟩ := p'
      simp only [List.map_cons, List.cons.injEq] at hnames
      obtain ⟨rfl, hnames⟩ := hnames
      obtain ⟨hv, hrest⟩ := List.forall_mem_cons.1 hsettles
      obtain ⟨hv', hrest'⟩ := List.forall_mem_cons.1 hsettles'
      have hms : ∀ m ∈ kept (filled places), m.1 ≠ name := by
        rintro m hm rfl
        exact (List.nodup_cons.1 h.nodup).1 (h.tail.name_mem_of_mem_kept hm)
      have hms' : ∀ m ∈ kept (filled places'), m.1 ≠ name := by
        rintro m hm rfl
        exact (List.nodup_cons.1 h'.nodup).1 (h'.tail.name_mem_of_mem_kept hm)
      rw [h.kept_cons, h'.kept_cons] at hperm
      obtain ⟨hvalue, hperm⟩ := perm_cons_split hms hms' hperm
      exact .cons ⟨hv, hv', eq_of_perm_toList hvalue⟩ (ih h.tail h'.tail hnames hrest hrest' hperm)

theorem Orderly.agree (h : Orderly places) (h' : Orderly places')
    (hnames : places.map (·.1) = places'.map (·.1)) (hsettles : (object (filled places)).Settles)
    (hsettles' : (object (filled places')).Settles)
    (heq : (object (filled places)).settled = (object (filled places')).settled) :
    List.Forall₂ (fun p p' => Agree p.2 p'.2) places places' := by
  rw [settled_object h.nodup_filled hsettles, settled_object h'.nodup_filled hsettles'] at heq
  have hsorted := Json.object.inj heq
  have hperm : (kept (filled places)).Perm (kept (filled places')) :=
    (perm_sortByUnits _).symm.trans (hsorted ▸ perm_sortByUnits _)
  exact h.agree_of_perm h' hnames (h.settles hsettles) (h'.settles hsettles') hperm

end Places

def Told {α β : Type} (encode : α → Json) (value : α → β) (a a' : α) : Prop :=
  (encode a).Settles → (encode a').Settles → (encode a).settled = (encode a').settled →
    value a = value a'

/-- The place of a list that is left out when it is absent or empty. -/
def listed {α : Type} (encode : α → Json) (v : Option (List α)) : Option Json :=
  (present v).map fun as => .array (as.map encode)

/-- The place of a text that is left out when it is empty. -/
def texted (s : String) : Option Json :=
  if s = "" then none else some (.string s)

section Telling

variable {α β : Type} {encode : α → Json} {value : α → β} {a a' : α}

theorem Codes.solid {read : Json → Except Error β} {b : β} (h : Codes encode read a a' b) :
    Solid (encode a) :=
  ⟨h.notNull, h.alike.proper⟩

theorem Rereads.solid {read : Nat → Option Json → Except Error α} {b : α}
    (h : Rereads encode read a b) : Solid (encode a) :=
  ⟨h.notNull, h.alike.proper⟩

theorem Codes.told {read : Json → Except Error β} {b b' : α} (h : Codes encode read a b (value a))
    (h' : Codes encode read a' b' (value a')) : Told encode value a a' := by
  intro hsettles hsettles' heq
  have hread := h.reads hsettles
  rw [heq, h'.reads hsettles'] at hread
  exact (Except.ok.inj hread).symm

theorem Rereads.told {read : Nat → Option Json → Except Error α} {settle : α → α}
    (h : Rereads encode read a (settle a)) (h' : Rereads encode read a' (settle a')) :
    Told encode settle a a' := by
  intro hsettles hsettles' heq
  have hread := h.read_some hsettles
  rw [heq, h'.read_some hsettles'] at hread
  exact (Except.ok.inj hread).symm

/-- Values with one canonical text are read back as one value. -/
theorem Rereads.settle_eq {read : Nat → Option Json → Except Error α} {settle : α → α}
    (h : Rereads encode read a (settle a)) (h' : Rereads encode read a' (settle a')) {text : String}
    (htext : (encode a).canonical = .ok text) (htext' : (encode a').canonical = .ok text) :
    settle a = settle a' := by
  obtain ⟨-, hsettles, hwrite⟩ := canonical_eq_ok.1 htext
  obtain ⟨-, hsettles', hwrite'⟩ := canonical_eq_ok.1 htext'
  exact h.told h' hsettles hsettles' (eq_of_writePlain_eq (h.solid.spelled_settled hsettles)
    (h'.solid.spelled_settled hsettles') (hwrite.symm.trans hwrite'))

theorem told_name {name : α → String} (hplain : ∀ a, Text.normal (name a) = name a)
    (hname : Function.Injective name) (a a' : α) :
    Told (fun a => .string (name a)) (fun a => a) a a' := by
  intro _ _ heq
  rw [settled_string, settled_string, hplain, hplain] at heq
  exact hname (Json.string.inj heq)

theorem told_text (s s' : String) : Told .string Text.normal s s' := by
  intro _ _ heq
  rw [settled_string, settled_string] at heq
  exact Json.string.inj heq

theorem told_bool (b b' : Bool) : Told .bool (fun b => b) b b' := by
  intro _ _ heq
  rw [settled_bool, settled_bool] at heq
  exact Json.bool.inj heq

theorem solid_string (s : String) : Solid (.string s) :=
  ⟨rfl, trivial⟩

theorem solid_ofInt (n : Int) : Solid (ofInt n) :=
  ⟨rfl, isLiteral_toString_int n⟩

theorem told_ofInt (m n : Int) : Told ofInt (fun n => n) m n := by
  have hform (n : Int) : (ofInt n).settled = .number (toString n) :=
    settled_eq (normalForm_number_eq_ok.2 ⟨_, canonicalNumber_toString_int n, rfl⟩)
  intro _ _ heq
  rw [hform, hform] at heq
  exact toString_int_injective (Json.number.inj heq)

theorem solid_bool (b : Bool) : Solid (.bool b) :=
  ⟨rfl, trivial⟩

theorem solid_some {j : Json} (h : Solid j) : ∀ k ∈ some j, Solid k := by
  intro k hk
  cases hk
  exact h

theorem solid_optional {v : Option α} (h : ∀ a ∈ v, Solid (encode a)) :
    ∀ j ∈ v.map encode, Solid j := by
  intro j hj
  obtain ⟨a, ha, rfl⟩ := Option.map_eq_some_iff.1 hj
  exact h a ha

theorem solid_listed {v : Option (List α)} (h : ∀ as ∈ v, ∀ a ∈ as, Solid (encode a)) :
    ∀ j ∈ listed encode v, Solid j := by
  match v with
  | none | some [] => exact fun j hj => nomatch hj
  | some (a :: as) =>
      intro j hj
      cases hj
      refine ⟨rfl, everywhere_array.2 ⟨trivial, fun j hj => ?_⟩⟩
      obtain ⟨b, hb, rfl⟩ := List.mem_map.1 hj
      exact (h (a :: as) rfl b hb).proper

theorem solid_texted (s : String) : ∀ j ∈ texted s, Solid j := by
  intro j hj
  unfold texted at hj
  split at hj
  · cases hj
  · cases hj
    exact solid_string s

theorem Told.eq (h : Told encode value a a') (hagree : Agree (some (encode a)) (some (encode a'))) :
    value a = value a' :=
  h (hagree.settles _ rfl) (hagree.settles' _ rfl) (Option.some.inj hagree.settled_eq)

theorem told_optional {v v' : Option α} (h : ∀ a ∈ v, ∀ a' ∈ v', Told encode value a a')
    (hagree : Agree (v.map encode) (v'.map encode)) : v.map value = v'.map value := by
  have heq := hagree.settled_eq
  match v, v' with
  | none, none => rfl
  | none, some a' | some a, none => cases heq
  | some a, some a' => rw [Option.map_some, Option.map_some, (h a rfl a' rfl).eq hagree]

theorem told_items {as as' : List α} (h : ∀ a ∈ as, ∀ a' ∈ as', Told encode value a a')
    (hsettles : ∀ a ∈ as, (encode a).Settles) (hsettles' : ∀ a ∈ as', (encode a).Settles)
    (heq : (as.map encode).map settled = (as'.map encode).map settled) :
    as.map value = as'.map value := by
  induction as generalizing as' with
  | nil =>
      rw [List.map_nil, List.map_nil, eq_comm, List.map_eq_nil_iff, List.map_eq_nil_iff] at heq
      rw [heq]
  | cons a as ih =>
      obtain _ | ⟨a', as'⟩ := as'
      · cases heq
      simp only [List.map_cons, List.cons.injEq] at heq ⊢
      obtain ⟨hsettle, hsettles⟩ := List.forall_mem_cons.1 hsettles
      obtain ⟨hsettle', hsettles'⟩ := List.forall_mem_cons.1 hsettles'
      refine ⟨h a (by simp) a' (by simp) hsettle hsettle' heq.1, ?_⟩
      exact ih (fun b hb b' hb' => h b (by simp [hb]) b' (by simp [hb'])) hsettles hsettles' heq.2

theorem told_listed {v v' : Option (List α)}
    (h : ∀ as ∈ v, ∀ a ∈ as, ∀ as' ∈ v', ∀ a' ∈ as', Told encode value a a')
    (hagree : Agree (listed encode v) (listed encode v')) :
    (present v).map (·.map value) = (present v').map (·.map value) := by
  obtain ⟨hsettles, hsettles', heq⟩ := hagree
  match v, v' with
  | none, none | none, some [] | some [], none | some [], some [] => rfl
  | none, some (a' :: as') | some [], some (a' :: as') | some (a :: as), none
  | some (a :: as), some [] => cases heq
  | some (a :: as), some (a' :: as') =>
      have hs := hsettles _ rfl
      have hs' := hsettles' _ rfl
      have harray := Option.some.inj heq
      rw [settled_array hs, settled_array hs'] at harray
      have hvalue := told_items (fun b hb b' hb' => h _ rfl b hb _ rfl b' hb')
        (settles_of_mem_map hs) (settles_of_mem_map hs') (Json.array.inj harray)
      simp only [present, Option.map_some, hvalue]

theorem told_texted {s s' : String} (hagree : Agree (texted s) (texted s')) :
    Text.normal s = Text.normal s' := by
  have heq := hagree.settled_eq
  by_cases hs : s = "" <;> by_cases hs' : s' = ""
  · rw [hs, hs']
  · simp [texted, hs, hs'] at heq
  · simp [texted, hs, hs'] at heq
  · simpa [texted, hs, hs'] using heq

end Telling

theorem ifSome_eq {α : Type} (name : String) (encode : α → Json) (v : Option α) :
    ifSome name encode v = filled [(name, v.map encode)] := by
  cases v <;> rfl

theorem ifAny_eq {α : Type} (name : String) (encode : α → Json) (v : Option (List α)) :
    ifAny name encode v = filled [(name, listed encode v)] := by
  match v with
  | none | some [] | some (_ :: _) => rfl

theorem ifText_eq (name s : String) : ifText name s = filled [(name, texted s)] := by
  unfold ifText texted
  split <;> rfl

theorem filled_some (name : String) (j : Json) : [(name, j)] = filled [(name, some j)] :=
  rfl

theorem filled_append (places places' : List (String × Option Json)) :
    filled (places ++ places') = filled places ++ filled places' :=
  List.filterMap_append

end TenantQuery.Json
