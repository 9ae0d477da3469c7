import TenantQuery.Proofs.Json.Record

namespace TenantQuery.Json

open Outcome

section Sorting

variable {α : Type}

abbrev Ordered (ms : List (String × α)) : Prop :=
  ms.Pairwise fun m n => m.1 ≠ n.1 ∧ Text.codesLe m.1 n.1 = true

theorem Ordered.nodup {ms : List (String × α)} (h : Ordered ms) : (ms.map (·.1)).Nodup :=
  List.pairwise_map.2 (h.imp fun hmn => hmn.1)

theorem mem_insertSorted {key : String} {value : α} {ms : List (String × α)} {m : String × α}
    (h : m ∈ insertSorted key value ms) : m = (key, value) ∨ m ∈ ms := by
  induction ms with
  | nil => exact .inl (List.mem_singleton.1 h)
  | cons n ms ih =>
      rw [insertSorted] at h
      split at h
      · exact (List.mem_cons.1 h).imp id (List.mem_cons_of_mem n)
      · split at h
        · exact List.mem_cons.1 h
        · rcases List.mem_cons.1 h with rfl | h
          · exact .inr List.mem_cons_self
          · exact (ih h).imp id (List.mem_cons_of_mem n)

theorem ordered_insertSorted (key : String) (value : α) {ms : List (String × α)} (h : Ordered ms) :
    Ordered (insertSorted key value ms) := by
  induction ms with
  | nil => exact List.pairwise_singleton _ _
  | cons n ms ih =>
      obtain ⟨hn, hms⟩ := List.pairwise_cons.1 h
      rw [insertSorted]
      split
      · rename_i heq
        exact List.pairwise_cons.2 ⟨fun m hm => heq ▸ hn m hm, hms⟩
      · rename_i hne
        split
        · rename_i hle
          refine List.pairwise_cons.2 ⟨?_, h⟩
          intro m hm
          rcases List.mem_cons.1 hm with rfl | hm
          · exact ⟨Ne.symm hne, hle⟩
          · refine ⟨?_, Text.lexLe_trans hle (hn m hm).2⟩
            rintro rfl
            exact hne (Text.codesLe_antisymm (hn m hm).2 hle)
        · rename_i hle
          refine List.pairwise_cons.2 ⟨?_, ih hms⟩
          intro m hm
          rcases mem_insertSorted hm with rfl | hm
          · exact ⟨hne, (Text.lexLe_total _ _).resolve_right hle⟩
          · exact hn m hm

theorem perm_insertSorted {key : String} (value : α) {ms : List (String × α)}
    (h : key ∉ ms.map (·.1)) : (insertSorted key value ms).Perm ((key, value) :: ms) := by
  induction ms with
  | nil => exact List.Perm.refl _
  | cons n ms ih =>
      rw [List.map_cons, List.mem_cons, not_or] at h
      rw [insertSorted, if_neg (Ne.symm h.1)]
      split
      · exact List.Perm.refl _
      · exact ((ih h.2).cons n).trans (List.Perm.swap (key, value) n ms)

theorem ordered_sortMembers (ms : List (String × α)) : Ordered (sortMembers ms) := by
  have hfold (sorted : List (String × α)) (h : Ordered sorted) :
      Ordered (ms.foldl (fun sorted m => insertSorted m.1 m.2 sorted) sorted) := by
    induction ms generalizing sorted with
    | nil => exact h
    | cons m ms ih => exact ih _ (ordered_insertSorted m.1 m.2 h)
  exact hfold [] .nil

theorem mem_of_mem_sortMembers {ms : List (String × α)} {m : String × α} (h : m ∈ sortMembers ms) :
    m ∈ ms := by
  have hfold (sorted : List (String × α))
      (hm : m ∈ ms.foldl (fun sorted m => insertSorted m.1 m.2 sorted) sorted) :
      m ∈ sorted ∨ m ∈ ms := by
    clear h
    induction ms generalizing sorted with
    | nil => exact .inl hm
    | cons n ms ih =>
        rcases ih _ hm with hm | hm
        · exact (mem_insertSorted hm).elim (fun heq => .inr (heq ▸ List.mem_cons_self)) .inl
        · exact .inr (List.mem_cons_of_mem n hm)
  exact (hfold [] h).resolve_left List.not_mem_nil

theorem perm_sortMembers {ms : List (String × α)} (h : (ms.map (·.1)).Nodup) :
    (sortMembers ms).Perm ms := by
  have hfold (sorted : List (String × α)) (hnodup : ((sorted ++ ms).map (·.1)).Nodup) :
      (ms.foldl (fun sorted m => insertSorted m.1 m.2 sorted) sorted).Perm (sorted ++ ms) := by
    clear h
    induction ms generalizing sorted with
    | nil => rw [List.append_nil]; exact List.Perm.refl _
    | cons m ms ih =>
        have hm : m.1 ∉ sorted.map (·.1) := by
          intro hmem
          rw [List.map_append, List.nodup_append] at hnodup
          exact hnodup.2.2 _ hmem _ List.mem_cons_self rfl
        have hinsert := (perm_insertSorted m.2 hm).append_right ms
        have hmiddle : (sorted ++ m :: ms).Perm (m :: sorted ++ ms) := List.perm_middle
        refine (ih _ ?_).trans (hinsert.trans hmiddle.symm)
        exact ((hinsert.trans hmiddle.symm).map _).nodup_iff.2 hnodup
  exact hfold [] h

theorem sortMembers_congr {ms ns : List (String × α)} (hperm : ms.Perm ns)
    (hnodup : (ms.map (·.1)).Nodup) : sortMembers ms = sortMembers ns := by
  have hsorted : (sortMembers ms).Perm (sortMembers ns) :=
    (perm_sortMembers hnodup).trans
      (hperm.trans (perm_sortMembers ((hperm.map _).nodup_iff.1 hnodup)).symm)
  refine List.Perm.eq_of_pairwise ?_ (ordered_sortMembers ms) (ordered_sortMembers ns) hsorted
  intro m n hm hn hmn hnm
  exact eq_of_mem_of_fst_eq (ordered_sortMembers ms).nodup hm (hsorted.mem_iff.2 hn)
    (Text.codesLe_antisymm hmn.2 hnm.2)

theorem sortMembers_eq_nil {ms : List (String × α)} : sortMembers ms = [] ↔ ms = [] := by
  have hinsert (m : String × α) (sorted : List (String × α)) : insertSorted m.1 m.2 sorted ≠ [] := by
    cases sorted with
    | nil => exact List.cons_ne_nil _ _
    | cons n sorted =>
        rw [insertSorted]
        split
        · exact List.cons_ne_nil _ _
        · split <;> exact List.cons_ne_nil _ _
  induction ms using List.reverseRecOn with
  | nil => simp [sortMembers]
  | append_singleton ms m _ =>
      rw [sortMembers, List.foldl_append]
      simpa using hinsert m _

theorem sortMembers_of_ordered {ms : List (String × α)} (h : Ordered ms) : sortMembers ms = ms := by
  refine List.Perm.eq_of_pairwise ?_ (ordered_sortMembers ms) h (perm_sortMembers h.nodup)
  intro m n hm hn hmn hnm
  have hm' := (perm_sortMembers h.nodup).mem_iff.1 hm
  exact eq_of_mem_of_fst_eq h.nodup hm' hn (Text.codesLe_antisymm hmn.2 hnm.2)

end Sorting

section Keyed

variable {α β : Type} {encode : α → Json} {entries : List (String × α)}

def keyed (encode : α → Json) (entries : List (String × α)) : List (String × Json) :=
  entries.map fun e => (e.1, encode e.2)

theorem keyed_sortMembers (encode : α → Json) (entries : List (String × α)) :
    keyed encode (sortMembers entries) = sortMembers (keyed encode entries) := by
  have hinsert (key : String) (value : α) (ms : List (String × α)) :
      keyed encode (insertSorted key value ms) = insertSorted key (encode value) (keyed encode ms) := by
    induction ms with
    | nil => rfl
    | cons m ms ih =>
        simp only [keyed, List.map_cons, insertSorted] at ih ⊢
        split
        · rfl
        · split
          · rfl
          · rw [List.map_cons, ih]
  induction entries using List.reverseRecOn with
  | nil => rfl
  | append_singleton ms m ih =>
      simp only [sortMembers, keyed, List.map_append, List.foldl_append, List.map_cons,
        List.map_nil, List.foldl_cons, List.foldl_nil] at ih hinsert ⊢
      rw [hinsert, ih]

def composed (encode : α → Json) (entries : List (String × α)) : List (String × α) :=
  (entries.filter fun e => !(encode e.2).isNull).map fun e => (Text.normal e.1, e.2)

theorem keys_keyed (encode : α → Json) (entries : List (String × α)) :
    (keyed encode entries).map (·.1) = entries.map (·.1) := by
  rw [keyed, List.map_map]
  rfl

theorem mem_composed {e : String × α} :
    e ∈ composed encode entries ↔
      ∃ e' ∈ entries, (encode e'.2).isNull = false ∧ e = (Text.normal e'.1, e'.2) := by
  simp only [composed, List.mem_map, List.mem_filter, Bool.not_eq_true', and_assoc, @eq_comm _ e]

theorem kept_keyed : kept (keyed encode entries) =
    keyed (fun a => (encode a).settled) (composed encode entries) := by
  induction entries with
  | nil => rfl
  | cons e entries ih =>
      rw [keyed, List.map_cons, kept_cons, ← keyed, ih]
      cases hnull : (encode e.2).isNull with
      | false => simp [composed, keyed, hnull]
      | true => simp [composed, keyed, hnull]

theorem proper_keyed (hkeys : (entries.map (·.1)).Nodup) (h : ∀ e ∈ entries, (encode e.2).Proper) :
    (object (keyed encode entries)).Proper := by
  refine everywhere_object.2 ⟨by rwa [IsTidy, keys_keyed], fun m hm => ?_⟩
  obtain ⟨e, he, rfl⟩ := List.mem_map.1 hm
  exact h e he

/-- Values under keys have a normal form if and only if each has one, and the keys of those that are
not null stay apart where they are composed. -/
theorem settles_keyed (hkeys : (entries.map (·.1)).Nodup) :
    (object (keyed encode entries)).Settles ↔
      (∀ e ∈ entries, (encode e.2).Settles) ∧ ((composed encode entries).map (·.1)).Nodup := by
  rw [settles_object (by rwa [keys_keyed]), kept_keyed, keys_keyed, keyed, List.forall_mem_map]

theorem settled_keyed (hkeys : (entries.map (·.1)).Nodup)
    (hsettles : (object (keyed encode entries)).Settles) :
    (object (keyed encode entries)).settled =
      object (keyed (fun a => (encode a).settled) (sortByUnits (composed encode entries))) := by
  have hsort := sortByUnits_map (fun a => (encode a).settled) (composed encode entries)
  rw [settled_object (by rwa [keys_keyed]) hsettles, kept_keyed, keyed, hsort, keyed]

theorem entries_keyed {slot : Slot β} {value : α → β}
    (h : ∀ e ∈ entries, slot [] (encode e.2) = .ok (value e.2)) :
    Slot.entries slot (keyed encode entries) = .ok (entries.map fun e => (e.1, value e.2)) := by
  induction entries with
  | nil => rfl
  | cons e entries ih =>
      obtain ⟨he, hentries⟩ := List.forall_mem_cons.1 h
      have hrest := ih hentries
      rw [keyed] at hrest
      rw [keyed, List.map_cons, Slot.entries, he, ok_bind, hrest]
      rfl

def settledKeyed (encode : α → Json) (value : α → β) (entries : List (String × α)) :
    List (String × β) :=
  sortMembers ((composed encode entries).map fun e => (e.1, value e.2))

theorem sortMembers_sortByUnits {value : α → β} (hkeys : ((composed encode entries).map (·.1)).Nodup) :
    sortMembers ((sortByUnits (composed encode entries)).map fun e => (e.1, value e.2)) =
      settledKeyed encode value entries := by
  refine sortMembers_congr ((perm_sortByUnits _).map _) ?_
  rw [List.map_map]
  exact (((perm_sortByUnits (composed encode entries)).map Prod.fst).nodup_iff).2 hkeys

theorem read_keyed {slot : Slot β} {value : α → β} (hkeys : (entries.map (·.1)).Nodup)
    (hslot : ∀ e ∈ entries, (encode e.2).isNull = false → (encode e.2).Settles →
      slot [] (encode e.2).settled = .ok (value e.2))
    (hsettles : (object (keyed encode entries)).Settles) :
    Slot.map slot [] (object (keyed encode entries)).settled =
      .ok (some (settledKeyed encode value entries)) := by
  obtain ⟨hvalues, hnodup⟩ := (settles_keyed hkeys).1 hsettles
  have hread : Slot.entries slot
      (keyed (fun a => (encode a).settled) (sortByUnits (composed encode entries))) =
      .ok ((sortByUnits (composed encode entries)).map fun e => (e.1, value e.2)) := by
    refine entries_keyed fun e he => ?_
    obtain ⟨e', he', hnull, rfl⟩ := mem_composed.1 ((perm_sortByUnits _).mem_iff.1 he)
    exact hslot e' he' hnull (hvalues e' he')
  rw [settled_keyed hkeys hsettles]
  simp only [Slot.map, Slot.optional, membersOf, List.takeWhile_nil, List.nil_append, hread, map_ok,
    sortMembers_sortByUnits hnodup]

def keyedOrNull (encode : α → Json) : Option (List (String × α)) → Json
  | some entries => object (keyed encode entries)
  | none => .null

theorem Writes.keyedOrNull {σ : Type} {name : String} {fs : List (Member σ)} {s t : σ}
    {ms ms' : List (String × Json)} {slot : Slot β} {value : α → β}
    {set : σ → Option (List (String × β)) → σ} {v : Option (List (String × α))}
    (hkeys : ∀ es ∈ v, (es.map (·.1)).Nodup) (hproper : ∀ a, (encode a).Proper)
    (hslot : ∀ es ∈ v, ∀ e ∈ es, (encode e.2).isNull = false → (encode e.2).Settles →
      slot [] (encode e.2).settled = .ok (value e.2)) (hset : set s none = s)
    (h : Writes fs (set s (v.map (settledKeyed encode value))) ms ms' t) :
    Writes (.of name (Slot.map slot) set :: fs) s ((name, Json.keyedOrNull encode v) :: ms)
      ((name, Json.keyedOrNull encode v) :: ms') t := by
  cases v with
  | none =>
      rw [Option.map_none, hset] at h
      exact .null h
  | some es =>
      refine .cons (.refl (proper_keyed (hkeys es rfl) fun e _ => hproper e.2)) rfl
        (fun hsettles => ?_) h
      have hread := read_keyed (hkeys es rfl) (hslot es rfl) hsettles
      simp only [Member.of, Json.keyedOrNull, hread, map_ok, Option.map_some]

theorem settledKeyed_eq_nil {value : α → β} :
    settledKeyed encode value entries = [] ↔ ∀ e ∈ entries, (encode e.2).isNull = true := by
  rw [settledKeyed, sortMembers_eq_nil, List.map_eq_nil_iff, composed, List.map_eq_nil_iff,
    List.filter_eq_nil_iff]
  simp

theorem composed_eq_self
    (h : ∀ e ∈ entries, (encode e.2).isNull = false ∧ Text.normal e.1 = e.1) :
    composed encode entries = entries := by
  have hfilter : entries.filter (fun e => !(encode e.2).isNull) = entries :=
    List.filter_eq_self.2 fun e he => by simp [(h e he).1]
  rw [composed, hfilter]
  conv_rhs => rw [← List.map_id entries]
  refine List.map_congr_left fun e he => ?_
  rw [(h e he).2]
  rfl

/-- Nothing is lost of entries in order if and only if none is null, and keys and values are composed
already. -/
theorem settledKeyed_eq_self {settle : α → α} (hordered : Ordered entries)
    (hagain : ∀ a, settle (settle a) = settle a)
    (hnull : ∀ a, (encode (settle a)).isNull = (encode a).isNull) :
    settledKeyed encode settle entries = entries ↔
      ∀ e ∈ entries, (encode e.2).isNull = false ∧ Text.normal e.1 = e.1 ∧ settle e.2 = e.2 := by
  constructor
  · intro h e he
    rw [← h] at he
    obtain ⟨e', he', rfl⟩ := List.mem_map.1 (mem_of_mem_sortMembers he)
    obtain ⟨e, -, hvalue, rfl⟩ := mem_composed.1 he'
    exact ⟨by rw [hnull, hvalue], Text.normal_normal _, hagain _⟩
  · intro h
    have hsame : entries.map (fun e => (e.1, settle e.2)) = entries := by
      conv_rhs => rw [← List.map_id entries]
      refine List.map_congr_left fun e he => ?_
      rw [(h e he).2.2]
      rfl
    rw [settledKeyed, composed_eq_self fun e he => ⟨(h e he).1, (h e he).2.1⟩, hsame,
      sortMembers_of_ordered hordered]

theorem alike_keyed {settle : α → α} (hkeys : (entries.map (·.1)).Nodup)
    (h : ∀ e ∈ entries, Alike (encode e.2) (encode (settle e.2))) :
    Alike (object (keyed encode entries))
      (object (keyed encode (settledKeyed encode settle entries))) := by
  have hordered : Ordered (settledKeyed encode settle entries) := ordered_sortMembers _
  have hmem {e : String × α} (he : e ∈ settledKeyed encode settle entries) :
      ∃ e' ∈ entries, (encode e'.2).isNull = false ∧ e = (Text.normal e'.1, settle e'.2) := by
    obtain ⟨e₀, he₀, rfl⟩ := List.mem_map.1 (mem_of_mem_sortMembers he)
    obtain ⟨e', he', hnull, rfl⟩ := mem_composed.1 he₀
    exact ⟨e', he', hnull, rfl⟩
  refine ⟨proper_keyed hkeys fun e he => (h e he).proper,
    proper_keyed hordered.nodup fun e he => ?_, fun hsettles => ?_⟩
  · obtain ⟨e', he', -, rfl⟩ := hmem he
    exact (h e' he').proper'
  · obtain ⟨hvalues, hnodup⟩ := (settles_keyed hkeys).1 hsettles
    have hform (e : String × α) (he : e ∈ entries) := (h e he).normalForm_eq (hvalues e he)
    have hsettled (e : String × α) (he : e ∈ entries) :
        (encode (settle e.2)).settled = (encode e.2).settled :=
      (hvalues e he).settled_eq_of (hform e he)
    refine normalForm_object_congr (by rwa [keys_keyed]) (by rw [keys_keyed]; exact hordered.nodup)
      hsettles ?_ ?_
    · intro m hm
      obtain ⟨e, he, rfl⟩ := List.mem_map.1 hm
      obtain ⟨e', he', -, rfl⟩ := hmem he
      exact (settles_congr (hform e' he')).2 (hvalues e' he')
    · have hcomposed : composed encode (settledKeyed encode settle entries) =
          settledKeyed encode settle entries := by
        refine composed_eq_self fun e he => ?_
        obtain ⟨e', he', hnull, rfl⟩ := hmem he
        refine ⟨?_, Text.normal_normal _⟩
        rw [← isNull_settled, hsettled e' he', isNull_settled, hnull]
      rw [kept_keyed, kept_keyed, hcomposed]
      have hperm : (settledKeyed encode settle entries).Perm
          ((composed encode entries).map fun e => (e.1, settle e.2)) := by
        refine perm_sortMembers ?_
        rw [List.map_map]
        exact hnodup
      have hsame : keyed (fun a => (encode a).settled) ((composed encode entries).map fun e =>
          (e.1, settle e.2)) = keyed (fun a => (encode a).settled) (composed encode entries) := by
        rw [keyed, List.map_map]
        refine List.map_congr_left fun e he => ?_
        obtain ⟨e', he', -, rfl⟩ := mem_composed.1 he
        exact congrArg (Prod.mk _) (hsettled e' he')
      rw [← hsame]
      exact (hperm.map _).symm

/-- Values under keys that are left out when there are none. -/
def ifKeyed (name : String) (encode : α → Json) (v : Option (List (String × α))) :
    List (String × Json) :=
  match v with
  | some (e :: es) => [(name, object (keyed encode (e :: es)))]
  | _ => []

section Left

variable {σ : Type} {name : String} {fs : List (Member σ)} {s t : σ}
  {ms ms' again : List (String × Json)} {slot : Slot α} {settle : α → α}
  {set : σ → Option (List (String × α)) → σ} {v : Option (List (String × α))}

/-- Entries are read back, and are written as the same again unless all of them are null. -/
theorem Writes.ifKeyed (hkeys : ∀ es ∈ v, (es.map (·.1)).Nodup)
    (halike : ∀ es ∈ v, ∀ e ∈ es, Alike (encode e.2) (encode (settle e.2)))
    (hslot : ∀ es ∈ v, ∀ e ∈ es, (encode e.2).isNull = false → (encode e.2).Settles →
      slot [] (encode e.2).settled = .ok (settle e.2)) (hset : set s none = s)
    (hagain : again = Json.ifKeyed name encode v ∨
      (∀ es ∈ v, es = [] ∨ ∃ e ∈ es, (encode e.2).isNull = false) ∧
        again = Json.ifKeyed name encode ((present v).map (settledKeyed encode settle)))
    (h : Writes fs (set s ((present v).map (settledKeyed encode settle))) ms ms' t) :
    Writes (.of name (Slot.map slot) set :: fs) s (Json.ifKeyed name encode v ++ ms)
      (again ++ ms') t := by
  match v with
  | none | some [] =>
      have hnone : again = [] := hagain.elim id And.right
      simp only [present, Option.map_none, hset] at h
      rw [hnone]
      exact .skip h
  | some (e :: es) =>
      have hkeyed := alike_keyed (hkeys _ rfl) (halike _ rfl)
      have hread (hsettles : (object (keyed encode (e :: es))).Settles) :
          (Member.of name (Slot.map slot) set).write []
            (object (keyed encode (e :: es))).settled s =
              .ok (set s (some (settledKeyed encode settle (e :: es)))) := by
        simp only [Member.of, read_keyed (hkeys _ rfl) (hslot _ rfl) hsettles, map_ok]
      rcases hagain with rfl | ⟨hsome, rfl⟩
      · exact .cons (.refl hkeyed.proper) rfl hread h
      · have hne : settledKeyed encode settle (e :: es) ≠ [] := by
          rw [Ne, settledKeyed_eq_nil]
          intro hall
          obtain ⟨e', he', hnull⟩ := (hsome _ rfl).resolve_left (List.cons_ne_nil _ _)
          rw [hall e' he'] at hnull
          cases hnull
        obtain ⟨e', es', hcons⟩ := List.exists_cons_of_ne_nil hne
        have hwritten : Json.ifKeyed name encode (some (settledKeyed encode settle (e :: es))) =
            [(name, object (keyed encode (settledKeyed encode settle (e :: es))))] := by
          rw [hcons]
          rfl
        simp only [present, Option.map_some] at h ⊢
        rw [hwritten]
        exact .cons hkeyed rfl hread h

end Left

end Keyed

def entriesObject (entries : List (String × String)) : Json :=
  .object (entries.map fun e => (e.1, .string e.2))

def settledEntries (entries : List (String × String)) : List (String × String) :=
  sortMembers (entries.map fun e => (Text.normal e.1, Text.normal e.2))

theorem composed_string (entries : List (String × String)) :
    composed .string entries = entries.map fun e => (Text.normal e.1, e.2) := by
  simp [composed, isNull]

/-- Texts under keys have a normal form if and only if the keys stay apart where they are composed. -/
theorem settles_entries {entries : List (String × String)} (hkeys : (entries.map (·.1)).Nodup) :
    (entriesObject entries).Settles ↔ (entries.map fun e => Text.normal e.1).Nodup := by
  have hvalues : ∀ e ∈ entries, (string e.2).Settles := fun e _ => settles_string e.2
  have hsettles : (entriesObject entries).Settles ↔ _ := settles_keyed hkeys
  rw [hsettles, and_iff_right hvalues, composed_string, List.map_map]
  rfl

theorem entries_texts (entries : List (String × String)) :
    Slot.entries Slot.text (entries.map fun e => (e.1, Json.string e.2)) = .ok entries := by
  have hread : Slot.entries Slot.text (keyed .string entries) =
      .ok (entries.map fun e => (e.1, id e.2)) := entries_keyed fun _ _ => rfl
  simpa [keyed] using hread

theorem settledEntries_eq (entries : List (String × String)) :
    settledEntries entries = settledKeyed .string Text.normal entries := by
  rw [settledEntries, settledKeyed, composed_string, List.map_map]
  rfl

theorem alike_entries {entries : List (String × String)} (hkeys : (entries.map (·.1)).Nodup) :
    Alike (entriesObject entries) (entriesObject (settledEntries entries)) := by
  rw [settledEntries_eq]
  exact alike_keyed hkeys fun e _ => .string e.2

theorem read_entries {entries : List (String × String)} (hkeys : (entries.map (·.1)).Nodup)
    (hsettles : (entriesObject entries).Settles) :
    Slot.map Slot.text [] (entriesObject entries).settled =
      .ok (some (settledEntries entries)) := by
  have hread : Slot.map Slot.text [] (entriesObject entries).settled =
      .ok (some (settledKeyed .string Text.normal entries)) := by
    refine read_keyed hkeys (fun e _ _ _ => ?_) hsettles
    rw [settled_string]
    rfl
  rw [hread, settledEntries_eq]

end TenantQuery.Json
