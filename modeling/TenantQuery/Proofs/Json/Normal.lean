import TenantQuery.Proofs.Json.Escaping
import TenantQuery.Proofs.Json.Number

namespace TenantQuery.Json

open Outcome

def IsTidy : Json → Prop
  | .number literal => IsLiteral literal
  | .object members => (members.map (·.1)).Nodup
  | _ => True

/-- A value that is tidy at every depth. -/
abbrev Proper (j : Json) : Prop :=
  j.Everywhere IsTidy

theorem Proper.spelled {j : Json} (h : j.Proper) : j.Spelled := by
  induction j using Json.induction with
  | null | bool b | string s => trivial
  | number literal => exact h
  | array items ih =>
      have hitems := (everywhere_array.1 h).2
      exact everywhere_array.2 ⟨trivial, fun j hj => ih j hj (hitems j hj)⟩
  | object members ih =>
      have hmembers := (everywhere_object.1 h).2
      exact everywhere_object.2 ⟨trivial, fun m hm => ih m hm (hmembers m hm)⟩

theorem itemsDepth_le_iff {items : List Json} {n : Nat} :
    itemsDepth items ≤ n ↔ ∀ j ∈ items, j.depth ≤ n := by
  induction items with
  | nil => simp [itemsDepth]
  | cons item items ih => simp [itemsDepth, ih]

theorem membersDepth_le_iff {members : List (String × Json)} {n : Nat} :
    membersDepth members ≤ n ↔ ∀ m ∈ members, m.2.depth ≤ n := by
  induction members with
  | nil => simp [membersDepth]
  | cons m members ih =>
      obtain ⟨key, value⟩ := m
      simp [membersDepth, ih]

section Sorting

variable {α : Type}

theorem perm_insertByUnits (m : String × α) (ms : List (String × α)) :
    (insertByUnits m ms).Perm (m :: ms) := by
  induction ms with
  | nil => exact List.Perm.refl _
  | cons n ms ih =>
      rw [insertByUnits]
      split
      · exact List.Perm.refl _
      · exact (ih.cons n).trans (List.Perm.swap m n ms)

theorem perm_sortByUnits (ms : List (String × α)) : (sortByUnits ms).Perm ms := by
  induction ms with
  | nil => exact List.Perm.refl _
  | cons m ms ih => exact (perm_insertByUnits m _).trans (ih.cons m)

/-- Members in order of the units of their names. -/
abbrev Sorted (ms : List (String × α)) : Prop :=
  ms.Pairwise fun m n => Text.unitsLe m.1 n.1 = true

theorem sorted_insertByUnits (m : String × α) {ms : List (String × α)} (h : Sorted ms) :
    Sorted (insertByUnits m ms) := by
  induction ms with
  | nil => exact List.pairwise_singleton _ _
  | cons n ms ih =>
      obtain ⟨hn, hms⟩ := List.pairwise_cons.1 h
      rw [insertByUnits]
      split
      · rename_i hmn
        refine List.pairwise_cons.2 ⟨?_, h⟩
        intro k hk
        rcases List.mem_cons.1 hk with rfl | hk
        · exact hmn
        · exact Text.lexLe_trans hmn (hn k hk)
      · rename_i hmn
        have hnm : Text.unitsLe n.1 m.1 = true :=
          (Text.lexLe_total _ _).resolve_left hmn
        refine List.pairwise_cons.2 ⟨?_, ih hms⟩
        intro k hk
        rcases List.mem_cons.1 ((perm_insertByUnits m ms).mem_iff.1 hk) with rfl | hk
        · exact hnm
        · exact hn k hk

theorem sorted_sortByUnits (ms : List (String × α)) : Sorted (sortByUnits ms) := by
  induction ms with
  | nil => exact List.Pairwise.nil
  | cons m ms ih => exact sorted_insertByUnits m ih

theorem eq_of_mem_of_fst_eq {ms : List (String × α)} (h : (ms.map (·.1)).Nodup)
    {m n : String × α} (hm : m ∈ ms) (hn : n ∈ ms) (hfst : m.1 = n.1) : m = n :=
  List.inj_on_of_nodup_map h hm hn hfst

/-- The order of members that are named differently does not matter for their sorted order. -/
theorem sortByUnits_congr {ms ns : List (String × α)} (hperm : ms.Perm ns)
    (hnodup : (ms.map (·.1)).Nodup) : sortByUnits ms = sortByUnits ns := by
  have hsorted : (sortByUnits ms).Perm (sortByUnits ns) :=
    (perm_sortByUnits ms).trans (hperm.trans (perm_sortByUnits ns).symm)
  refine List.Perm.eq_of_pairwise ?_ (sorted_sortByUnits ms) (sorted_sortByUnits ns) hsorted
  intro m n hm hn hmn hnm
  have hm' := (perm_sortByUnits ms).mem_iff.1 hm
  have hn' := hperm.symm.mem_iff.1 ((perm_sortByUnits ns).mem_iff.1 hn)
  exact eq_of_mem_of_fst_eq hnodup hm' hn' (Text.unitsLe_antisymm hmn hnm)

end Sorting

/-- A value that has a normal form. -/
def Settles (j : Json) : Prop :=
  ∃ w, j.normalForm = .ok w

/-- The normal form of a value that has one. -/
def settled (j : Json) : Json :=
  match j.normalForm with
  | .ok w => w
  | .error _ => j

theorem settled_eq {j w : Json} (h : j.normalForm = .ok w) : j.settled = w := by
  rw [settled, h]

theorem Settles.normalForm_eq {j : Json} (h : j.Settles) : j.normalForm = .ok j.settled := by
  obtain ⟨w, hw⟩ := h
  rw [settled_eq hw, hw]

theorem Settles.settled_eq_of {j k : Json} (hj : j.Settles) (h : k.normalForm = j.normalForm) :
    k.settled = j.settled :=
  settled_eq (h.trans hj.normalForm_eq)

theorem settles_congr {j k : Json} (h : j.normalForm = k.normalForm) : j.Settles ↔ k.Settles := by
  rw [Settles, Settles, h]

theorem settles_string (s : String) : (string s).Settles :=
  ⟨_, by rw [normalForm]⟩

@[simp] theorem settled_null : null.settled = null :=
  settled_eq (by rw [normalForm])

@[simp] theorem settled_bool (b : Bool) : (bool b).settled = bool b :=
  settled_eq (by rw [normalForm])

@[simp] theorem settled_string (s : String) : (string s).settled = string (Text.normal s) :=
  settled_eq (by rw [normalForm])

theorem normalItems_eq_ok {items ws : List Json} {index : Nat} :
    normalItems index items = .ok ws ↔ (∀ j ∈ items, j.Settles) ∧ ws = items.map settled := by
  induction items generalizing index ws with
  | nil => simp [normalItems, eq_comm]
  | cons item items ih =>
      rw [normalItems]
      simp only [bind_eq_ok, mapError_eq_ok, ih, pure_eq_ok, Except.ok.injEq, List.forall_mem_cons,
        List.map_cons]
      constructor
      · rintro ⟨w, hw, ws', ⟨hitems, rfl⟩, rfl⟩
        exact ⟨⟨⟨w, hw⟩, hitems⟩, by rw [settled_eq hw]⟩
      · rintro ⟨⟨hitem, hitems⟩, rfl⟩
        exact ⟨item.settled, hitem.normalForm_eq, _, ⟨hitems, rfl⟩, rfl⟩

theorem normalForm_array_eq_ok {items : List Json} {w : Json} :
    (array items).normalForm = .ok w ↔
      (∀ j ∈ items, j.Settles) ∧ w = array (items.map settled) := by
  rw [normalForm, map_eq_ok]
  simp only [normalItems_eq_ok]
  constructor
  · rintro ⟨ws, ⟨hitems, rfl⟩, rfl⟩
    exact ⟨hitems, rfl⟩
  · rintro ⟨hitems, rfl⟩
    exact ⟨_, ⟨hitems, rfl⟩, rfl⟩

theorem settles_array {items : List Json} : (array items).Settles ↔ ∀ j ∈ items, j.Settles := by
  simp [Settles, normalForm_array_eq_ok]

theorem settled_array {items : List Json} (h : (array items).Settles) :
    (array items).settled = array (items.map settled) :=
  settled_eq (normalForm_array_eq_ok.2 ⟨settles_array.1 h, rfl⟩)

theorem normalMembers_eq_map (members : List (String × Json)) :
    normalMembers members = members.map fun m => (m.1, m.2.normalForm) := by
  induction members with
  | nil => rfl
  | cons m members ih =>
      obtain ⟨key, value⟩ := m
      rw [normalMembers, ih, List.map_cons]

theorem lastWins_map {α β : Type} (f : α → β) (ms : List (String × α)) :
    lastWins (ms.map fun m => (m.1, f m.2)) = (lastWins ms).map fun m => (m.1, f m.2) := by
  induction ms with
  | nil => rfl
  | cons m ms ih =>
      have hany : (ms.map fun m => (m.1, f m.2)).any (fun n => n.1 = m.1) =
          ms.any fun n => n.1 = m.1 := by
        rw [List.any_map]
        rfl
      rw [List.map_cons, lastWins, lastWins, ih, hany]
      split <;> rfl

theorem lastWins_of_nodup {α : Type} {ms : List (String × α)} (h : (ms.map (·.1)).Nodup) :
    lastWins ms = ms := by
  induction ms with
  | nil => rfl
  | cons m ms ih =>
      obtain ⟨hm, hms⟩ := List.nodup_cons.1 h
      rw [lastWins, if_neg, ih hms]
      simp only [List.any_eq_true, decide_eq_true_eq, not_exists, not_and]
      intro n hn hkey
      exact hm (List.mem_map.2 ⟨n, hn, hkey⟩)

theorem lastWins_subset {α : Type} (ms : List (String × α)) : lastWins ms ⊆ ms := by
  induction ms with
  | nil => simp [lastWins]
  | cons m ms ih =>
      rw [lastWins]
      split
      · exact List.subset_cons_of_subset m ih
      · exact List.cons_subset_cons m ih

theorem repeated?_eq_none {keys : List String} : repeated? keys = none ↔ keys.Nodup := by
  induction keys with
  | nil => simp [repeated?]
  | cons key keys ih =>
      rw [repeated?, List.nodup_cons]
      by_cases h : key ∈ keys <;> simp [h, ih]

theorem settleMembers_eq_ok {ms : List (String × Except Error Json)} {ws : List (String × Json)} :
    settleMembers ms = .ok ws ↔ ms = ws.map fun m => (m.1, .ok m.2) := by
  induction ms generalizing ws with
  | nil => cases ws <;> simp [settleMembers]
  | cons m ms ih =>
      obtain ⟨key, value⟩ := m
      cases value with
      | error e => cases ws <;> simp [settleMembers]
      | ok value =>
          rw [settleMembers, map_eq_ok]
          simp only [ih]
          constructor
          · rintro ⟨ws', rfl, rfl⟩
            rfl
          · intro h
            cases ws with
            | nil => simp at h
            | cons w ws =>
                obtain ⟨key', value'⟩ := w
                simp only [List.map_cons, List.cons.injEq, Prod.mk.injEq, Except.ok.injEq] at h
                obtain ⟨⟨rfl, rfl⟩, rfl⟩ := h
                exact ⟨ws, rfl, rfl⟩

theorem insertByUnits_map {α β : Type} (f : α → β) (m : String × α) (ms : List (String × α)) :
    insertByUnits (m.1, f m.2) (ms.map fun m => (m.1, f m.2)) =
      (insertByUnits m ms).map fun m => (m.1, f m.2) := by
  induction ms with
  | nil => rfl
  | cons n ms ih =>
      rw [List.map_cons, insertByUnits, insertByUnits, ih]
      split <;> rfl

theorem sortByUnits_map {α β : Type} (f : α → β) (ms : List (String × α)) :
    sortByUnits (ms.map fun m => (m.1, f m.2)) =
      (sortByUnits ms).map fun m => (m.1, f m.2) := by
  induction ms with
  | nil => rfl
  | cons m ms ih => rw [List.map_cons, sortByUnits, sortByUnits, ih, insertByUnits_map f m]

/-- What a normal form keeps of the members of an object, before it is put in order. -/
def kept (members : List (String × Json)) : List (String × Json) :=
  (members.filter fun m => !m.2.settled.isNull).map fun m => (Text.normal m.1, m.2.settled)

/-- The members that have a normal form other than null, under composed names. -/
def named (members : List (String × Except Error Json)) : List (String × Except Error Json) :=
  (members.filter fun m =>
    match m.2 with
    | .ok .null => false
    | _ => true).map fun m => (Text.normal m.1, m.2)

theorem named_eq_kept {members : List (String × Json)} (h : ∀ m ∈ members, m.2.Settles) :
    named (members.map fun m => (m.1, m.2.normalForm)) =
      (kept members).map fun m => (m.1, .ok m.2) := by
  induction members with
  | nil => rfl
  | cons m members ih =>
      obtain ⟨hm, hmembers⟩ := List.forall_mem_cons.1 h
      have hrest := ih hmembers
      simp only [named, kept, List.map_cons, List.filter_cons] at hrest ⊢
      rw [hm.normalForm_eq]
      cases hsettled : m.2.settled <;> simp [hsettled, isNull, hrest]

theorem settles_of_named {members : List (String × Json)}
    (h : ∀ m ∈ named (members.map fun m => (m.1, m.2.normalForm)), ∃ w, m.2 = .ok w) :
    ∀ m ∈ members, m.2.Settles := by
  intro m hm
  cases hform : m.2.normalForm with
  | ok w => exact ⟨w, hform⟩
  | error e =>
      have hmem : (Text.normal m.1, .error e) ∈
          named (members.map fun m => (m.1, m.2.normalForm)) := by
        refine List.mem_map.2 ⟨(m.1, .error e), List.mem_filter.2 ⟨?_, rfl⟩, rfl⟩
        exact List.mem_map.2 ⟨m, hm, by rw [hform]⟩
      obtain ⟨w, hw⟩ := h _ hmem
      cases hw

theorem arrange_normalMembers (members : List (String × Json)) :
    arrange (normalMembers members) =
      match repeated? ((named ((lastWins members).map fun m => (m.1, m.2.normalForm))).map (·.1)) with
      | some key => .error (.duplicateKey key)
      | none => .ok (sortByUnits (named ((lastWins members).map fun m => (m.1, m.2.normalForm)))) := by
  rw [normalMembers_eq_map, ← lastWins_map]
  rfl

/-- Whether an object has a normal form, and which. -/
theorem normalForm_object_eq_ok {members : List (String × Json)} {w : Json} :
    (object members).normalForm = .ok w ↔
      (∀ m ∈ lastWins members, m.2.Settles) ∧ ((kept (lastWins members)).map (·.1)).Nodup ∧
        w = object (sortByUnits (kept (lastWins members))) := by
  have hkeys : ((kept (lastWins members)).map fun m => (m.1, (.ok m.2 : Except Error Json))).map
      (·.1) = (kept (lastWins members)).map (·.1) := by
    rw [List.map_map]
    rfl
  have hinj : Function.Injective fun m : String × Json => (m.1, (.ok m.2 : Except Error Json)) := by
    rintro ⟨k, v⟩ ⟨k', v'⟩ h
    simpa using h
  rw [normalForm, bind_eq_ok]
  simp only [bind_eq_ok, pure_eq_ok, Except.ok.injEq, settleMembers_eq_ok, arrange_normalMembers]
  constructor
  · rintro ⟨arranged, harranged, ws, rfl, rfl⟩
    split at harranged
    · cases harranged
    · rename_i hrepeated
      have hsorted := Except.ok.inj harranged
      have hsettles : ∀ m ∈ lastWins members, m.2.Settles := by
        apply settles_of_named
        intro m hm
        rw [← (perm_sortByUnits _).mem_iff, hsorted] at hm
        obtain ⟨m', -, rfl⟩ := List.mem_map.1 hm
        exact ⟨m'.2, rfl⟩
      rw [named_eq_kept hsettles] at hrepeated hsorted
      rw [sortByUnits_map] at hsorted
      rw [hkeys, repeated?_eq_none] at hrepeated
      exact ⟨hsettles, hrepeated, by rw [List.map_injective_iff.2 hinj hsorted]⟩
  · rintro ⟨hsettles, hnodup, rfl⟩
    refine ⟨_, ?_, sortByUnits (kept (lastWins members)), rfl, rfl⟩
    rw [named_eq_kept hsettles, hkeys, repeated?_eq_none.2 hnodup, sortByUnits_map]

section Members

variable {members : List (String × Json)}

theorem settles_object (hkeys : (members.map (·.1)).Nodup) :
    (object members).Settles ↔
      (∀ m ∈ members, m.2.Settles) ∧ ((kept members).map (·.1)).Nodup := by
  simp [Settles, normalForm_object_eq_ok, lastWins_of_nodup hkeys]

theorem settled_object (hkeys : (members.map (·.1)).Nodup) (h : (object members).Settles) :
    (object members).settled = object (sortByUnits (kept members)) := by
  obtain ⟨hsettles, hnodup⟩ := (settles_object hkeys).1 h
  apply settled_eq
  rw [normalForm_object_eq_ok, lastWins_of_nodup hkeys]
  exact ⟨hsettles, hnodup, rfl⟩

/-- Objects with the same members in normal form, in whatever order, have the same normal form. -/
theorem normalForm_object_congr {members' : List (String × Json)}
    (hkeys : (members.map (·.1)).Nodup) (hkeys' : (members'.map (·.1)).Nodup)
    (h : (object members).Settles) (hsettles : ∀ m ∈ members', m.2.Settles)
    (hperm : (kept members).Perm (kept members')) :
    (object members').normalForm = (object members).normalForm := by
  obtain ⟨-, hnodup⟩ := (settles_object hkeys).1 h
  rw [h.normalForm_eq, settled_object hkeys h, normalForm_object_eq_ok, lastWins_of_nodup hkeys']
  refine ⟨hsettles, (hperm.map _).nodup_iff.1 hnodup, ?_⟩
  rw [sortByUnits_congr hperm hnodup]

theorem kept_cons (m : String × Json) (members : List (String × Json)) :
    kept (m :: members) =
      if m.2.settled.isNull then kept members
      else (Text.normal m.1, m.2.settled) :: kept members := by
  cases h : m.2.settled.isNull <;> simp [kept, h]

theorem mem_kept {m : String × Json} :
    m ∈ kept members ↔ ∃ n ∈ members, n.2.settled.isNull = false ∧
      m = (Text.normal n.1, n.2.settled) := by
  simp only [kept, List.mem_map, List.mem_filter, Bool.not_eq_true', and_assoc]
  simp only [eq_comm]

end Members

theorem normalForm_number_eq_ok {literal : String} {w : Json} :
    (number literal).normalForm = .ok w ↔
      ∃ canonical, canonicalNumber literal = .ok canonical ∧ w = number canonical := by
  rw [normalForm, map_eq_ok]
  simp only [eq_comm]

@[simp] theorem isNull_settled (j : Json) : j.settled.isNull = j.isNull := by
  cases hform : j.normalForm with
  | error e => rw [settled, hform]
  | ok w =>
      rw [settled_eq hform]
      cases j with
      | null | bool b =>
          rw [normalForm] at hform
          rw [← Except.ok.inj hform]
      | string s =>
          rw [normalForm] at hform
          rw [← Except.ok.inj hform]
          rfl
      | number literal =>
          obtain ⟨canonical, -, rfl⟩ := normalForm_number_eq_ok.1 hform
          rfl
      | array items =>
          obtain ⟨-, rfl⟩ := normalForm_array_eq_ok.1 hform
          rfl
      | object members =>
          obtain ⟨-, -, rfl⟩ := normalForm_object_eq_ok.1 hform
          rfl

/-- Objects of the same normal form have the same members, but for null. -/
theorem exists_mem_of_settled_eq {members members' : List (String × Json)}
    (hkeys : (members.map (·.1)).Nodup) (hkeys' : (members'.map (·.1)).Nodup)
    (hsettles : (object members).Settles) (hsettles' : (object members').Settles)
    (h : (object members).settled = (object members').settled) {m : String × Json}
    (hm : m ∈ members) (hnull : m.2.isNull = false) :
    ∃ n ∈ members', Text.normal n.1 = Text.normal m.1 ∧ n.2.settled = m.2.settled := by
  rw [settled_object hkeys hsettles, settled_object hkeys' hsettles', object.injEq] at h
  have hmem : (Text.normal m.1, m.2.settled) ∈ kept members :=
    mem_kept.2 ⟨m, hm, by rwa [isNull_settled], rfl⟩
  rw [← (perm_sortByUnits _).mem_iff, h, (perm_sortByUnits _).mem_iff] at hmem
  obtain ⟨n, hn, -, heq⟩ := mem_kept.1 hmem
  rw [Prod.mk.injEq] at heq
  exact ⟨n, hn, heq.1.symm, heq.2.symm⟩

/-- The normal form of a value whose numbers are spelled as numbers is proper. -/
theorem Spelled.proper {j w : Json} (hj : j.Spelled) (h : j.normalForm = .ok w) : w.Proper := by
  induction j using Json.induction generalizing w with
  | null | bool b | string s =>
      rw [normalForm] at h
      rw [← Except.ok.inj h]
      trivial
  | number literal =>
      obtain ⟨canonical, hcanonical, rfl⟩ := normalForm_number_eq_ok.1 h
      exact isLiteral_canonicalNumber hj hcanonical
  | array items ih =>
      obtain ⟨hsettles, rfl⟩ := normalForm_array_eq_ok.1 h
      have hitems := (everywhere_array.1 hj).2
      refine everywhere_array.2 ⟨trivial, fun w hw => ?_⟩
      obtain ⟨j, hj, rfl⟩ := List.mem_map.1 hw
      exact ih j hj (hitems j hj) (hsettles j hj).normalForm_eq
  | object members ih =>
      obtain ⟨hsettles, hnodup, rfl⟩ := normalForm_object_eq_ok.1 h
      have hmembers := (everywhere_object.1 hj).2
      have hperm := perm_sortByUnits (kept (lastWins members))
      refine everywhere_object.2 ⟨(hperm.map _).nodup_iff.2 hnodup, fun w hw => ?_⟩
      obtain ⟨m, hm, -, rfl⟩ := mem_kept.1 (hperm.mem_iff.1 hw)
      have hm' := lastWins_subset members hm
      exact ih m hm' (hmembers m hm') (hsettles m hm).normalForm_eq

theorem depth_of_isNull {j : Json} (h : j.isNull = true) : j.depth = 0 := by
  cases j <;> first | rfl | cases h

/-- A normal form nests as deeply as the value, where nothing was written twice. -/
theorem Proper.depth_eq {j w : Json} (hj : j.Proper) (h : j.normalForm = .ok w) :
    w.depth = j.depth := by
  induction j using Json.induction generalizing w with
  | null | bool b =>
      rw [normalForm] at h
      rw [← Except.ok.inj h]
  | string s =>
      rw [normalForm] at h
      rw [← Except.ok.inj h]
      rfl
  | number literal =>
      obtain ⟨canonical, -, rfl⟩ := normalForm_number_eq_ok.1 h
      rfl
  | array items ih =>
      obtain ⟨hsettles, rfl⟩ := normalForm_array_eq_ok.1 h
      have hitems := (everywhere_array.1 hj).2
      have hdepth : ∀ i ∈ items, i.settled.depth = i.depth := fun i hi =>
        ih i hi (hitems i hi) (hsettles i hi).normalForm_eq
      have hle (n : Nat) : itemsDepth (items.map settled) ≤ n ↔ itemsDepth items ≤ n := by
        rw [itemsDepth_le_iff, itemsDepth_le_iff, List.forall_mem_map]
        exact forall₂_congr fun i hi => by rw [hdepth i hi]
      rw [Json.depth, Json.depth, Nat.le_antisymm ((hle _).2 le_rfl) ((hle _).1 le_rfl)]
  | object members ih =>
      obtain ⟨hkeys, hmembers⟩ := everywhere_object.1 hj
      obtain ⟨hsettles, hnodup, rfl⟩ := normalForm_object_eq_ok.1 h
      rw [lastWins_of_nodup hkeys] at hsettles ⊢
      have hdepth : ∀ m ∈ members, m.2.settled.depth = m.2.depth := fun m hm =>
        ih m hm (hmembers m hm) (hsettles m hm).normalForm_eq
      have hle (n : Nat) : membersDepth (sortByUnits (kept members)) ≤ n ↔
          membersDepth members ≤ n := by
        rw [membersDepth_le_iff, membersDepth_le_iff]
        constructor
        · intro hall m hm
          cases hnull : m.2.settled.isNull with
          | true =>
              rw [← hdepth m hm, depth_of_isNull hnull]
              exact Nat.zero_le n
          | false =>
              have hmem := (perm_sortByUnits _).mem_iff.2 (mem_kept.2 ⟨m, hm, hnull, rfl⟩)
              rw [← hdepth m hm]
              exact hall _ hmem
        · intro hall w hw
          obtain ⟨m, hm, -, rfl⟩ := mem_kept.1 ((perm_sortByUnits _).mem_iff.1 hw)
          rw [hdepth m hm]
          exact hall m hm
      rw [Json.depth, Json.depth, Nat.le_antisymm ((hle _).2 le_rfl) ((hle _).1 le_rfl)]

/-- The strings of a normal form are composed. -/
theorem Settles.composed {j : Json} (h : j.Settles) : j.settled.Everywhere HasComposed := by
  induction j using Json.induction with
  | null => rw [settled_null]; trivial
  | bool b => rw [settled_bool]; trivial
  | number literal =>
      obtain ⟨_, -, hform⟩ := normalForm_number_eq_ok.1 h.normalForm_eq
      rw [hform]
      trivial
  | string s => rw [settled_string]; exact Text.normal_normal s
  | array items ih =>
      rw [settled_array h, everywhere_array, List.forall_mem_map]
      exact ⟨trivial, fun i hi => ih i hi (settles_array.1 h i hi)⟩
  | object members ih =>
      obtain ⟨hsettles, -, hform⟩ := normalForm_object_eq_ok.1 h.normalForm_eq
      have hmem {m : String × Json} (hm : m ∈ sortByUnits (kept (lastWins members))) :=
        mem_kept.1 ((perm_sortByUnits _).mem_iff.1 hm)
      rw [hform, everywhere_object]
      refine ⟨fun m hm => ?_, fun m hm => ?_⟩
      · obtain ⟨n, -, -, rfl⟩ := hmem hm
        exact Text.normal_normal _
      · obtain ⟨n, hn, -, rfl⟩ := hmem hm
        exact ih n (lastWins_subset members hn) (hsettles n hn)

theorem canonical_eq_ok {j : Json} {text : String} :
    j.canonical = .ok text ↔ j.depth ≤ maxDepth ∧ j.Settles ∧ text = writePlain j.settled := by
  unfold canonical
  split
  · rename_i hdepth
    simp only [reduceCtorEq, false_iff, not_and]
    omega
  · rename_i hdepth
    rw [map_eq_ok]
    constructor
    · rintro ⟨w, hw, rfl⟩
      have hsettles : j.Settles := ⟨w, hw⟩
      rw [← settled_eq hw]
      exact ⟨by omega, hsettles, writeCanonical_eq_writePlain hsettles.composed⟩
    · rintro ⟨-, hsettles, rfl⟩
      exact ⟨_, hsettles.normalForm_eq, writeCanonical_eq_writePlain hsettles.composed⟩

/-- The canonical text of a proper value is read as its normal form. -/
theorem parse_canonical {j : Json} {text : String} (hj : j.Proper) (h : j.canonical = .ok text) :
    parse text = .ok j.settled := by
  obtain ⟨hdepth, hsettles, rfl⟩ := canonical_eq_ok.1 h
  have hform := hsettles.normalForm_eq
  exact parse_writePlain (hj.spelled.proper hform).spelled (by rwa [hj.depth_eq hform])

/-- The second value says the same as the first in normal form, if this has one. -/
structure Alike (j j' : Json) : Prop where
  proper : j.Proper
  proper' : j'.Proper
  normalForm_eq : j.Settles → j'.normalForm = j.normalForm

namespace Alike

theorem refl {j : Json} (h : j.Proper) : Alike j j :=
  ⟨h, h, fun _ => rfl⟩

theorem string (s : String) : Alike (.string s) (.string (Text.normal s)) :=
  ⟨trivial, trivial, fun _ => by rw [normalForm, normalForm, Text.normal_normal]⟩

/-- Values that are alike have the same canonical text. -/
theorem canonical_eq {j j' : Json} (h : Alike j j') {text : String} (hj : j.canonical = .ok text) :
    j'.canonical = .ok text := by
  obtain ⟨hdepth, hsettles, rfl⟩ := canonical_eq_ok.1 hj
  have heq := h.normalForm_eq hsettles
  have hform := hsettles.normalForm_eq
  refine canonical_eq_ok.2
    ⟨?_, (settles_congr heq).2 hsettles, by rw [hsettles.settled_eq_of heq]⟩
  rw [← h.proper'.depth_eq (heq.trans hform), h.proper.depth_eq hform]
  exact hdepth

theorem array {α : Type} {encode : α → Json} {settle : α → α} {as : List α}
    (h : ∀ a ∈ as, Alike (encode a) (encode (settle a))) :
    Alike (.array (as.map encode)) (.array ((as.map settle).map encode)) := by
  have hitems (hsettles : ∀ a ∈ as, (encode a).Settles) (index : Nat) :
      normalItems index ((as.map settle).map encode) = normalItems index (as.map encode) := by
    induction as generalizing index with
    | nil => rfl
    | cons a as ih =>
        obtain ⟨ha, has⟩ := List.forall_mem_cons.1 h
        obtain ⟨hsettle, hsettles⟩ := List.forall_mem_cons.1 hsettles
        simp only [List.map_cons, normalItems, ha.normalForm_eq hsettle, ih has hsettles]
  refine ⟨everywhere_array.2 ⟨trivial, ?_⟩, everywhere_array.2 ⟨trivial, ?_⟩, fun hsettles => ?_⟩
  · simpa using fun a ha => (h a ha).proper
  · simpa using fun a ha => (h a ha).proper'
  · rw [normalForm, normalForm, hitems (by simpa using settles_array.1 hsettles)]

end Alike

end TenantQuery.Json
