import TenantQuery.Proofs.Json.Invariant
import TenantQuery.Result.Item

namespace TenantQuery

open Json Outcome

theorem Double.settled_settled (x : Double) : x.settled.settled = x.settled := by
  by_cases hzero : x.isZero = true
  · have hself : x.settled = zero := by rw [settled, if_pos hzero]
    rw [hself, settled, ite_self]
  · have hself : x.settled = x := by rw [settled, if_neg hzero]
    rw [hself, hself]

namespace ItemValue

def Fits (v : ItemValue) : Prop :=
  ∀ x ∈ v.value?, x.isFinite = true

def settled : ItemValue → ItemValue
  | .dimension s => .dimension (Text.normal s)
  | .metric x => .metric x.settled
  | .null => .null

theorem settled_settled (v : ItemValue) : v.settled.settled = v.settled := by
  cases v with
  | dimension s => simp only [settled, Text.normal_normal]
  | metric x => simp only [settled, Double.settled_settled]
  | null => rfl

theorem isNull_encode {v : ItemValue} : v.encode.isNull = false ↔ v ≠ .null := by
  cases v <;> simp [encode, isNull, ofDouble]

theorem isNull_encode_settled (v : ItemValue) : v.settled.encode.isNull = v.encode.isNull := by
  cases v with
  | dimension s => rfl
  | metric x => simp only [settled, encode, ofDouble, isNull]
  | null => rfl

theorem fits_ofJson (j : Json) : (ofJson j).Fits := by
  cases j with
  | number literal =>
      simp only [ofJson]
      split
      · rename_i x hx
        simpa [Fits, value?] using isFinite_of_toDouble? hx
      · simp [Fits, value?]
  | null | bool _ | string _ | array _ | object _ => simp [Fits, ofJson, value?]

theorem proper_encode (v : ItemValue) : v.encode.Proper := by
  cases v with
  | dimension s => trivial
  | metric x => exact Layout.isLiteral_decimal _ _
  | null => trivial

theorem ofJson_settled {v : ItemValue} (h : v.Fits) : ofJson v.encode.settled = v.settled := by
  cases v with
  | dimension s => rw [encode, settled_string, ofJson, settled]
  | metric x =>
      obtain ⟨canonical, hcanonical, hread⟩ := canonicalNumber_document (h x rfl)
      have hform : (ofDouble x).normalForm = .ok (.number canonical) :=
        normalForm_number_eq_ok.2 ⟨_, hcanonical, rfl⟩
      simp only [encode, settled_eq hform, ofJson, hread, settled]
  | null => rfl

end ItemValue

namespace Item

def dimensionsOf (ms : List (String × ItemValue)) : List (String × String) :=
  ms.filterMap fun m => m.2.text?.map (m.1, ·)

def metricsOf (ms : List (String × ItemValue)) : List (String × Double) :=
  ms.filterMap fun m => m.2.value?.map (m.1, ·)

def nullsOf (ms : List (String × ItemValue)) : List String :=
  ms.filterMap fun m => if m.2 = .null then some m.1 else none

theorem foldl_add (ms : List (String × ItemValue)) (i : Item) :
    ms.foldl add i =
      ⟨(dimensionsOf ms).foldl (fun sorted m => insertSorted m.1 m.2 sorted) i.dimensions,
        (metricsOf ms).foldl (fun sorted m => insertSorted m.1 m.2 sorted) i.metrics,
        i.nullKeys ++ nullsOf ms⟩ := by
  induction ms generalizing i with
  | nil => simp [dimensionsOf, metricsOf, nullsOf]
  | cons m ms ih =>
      obtain ⟨key, v⟩ := m
      rw [List.foldl_cons, ih]
      cases v <;>
        simp [add, dimensionsOf, metricsOf, nullsOf, ItemValue.text?, ItemValue.value?]

theorem collect_eq (ms : List (String × ItemValue)) :
    collect ms = ⟨sortMembers (dimensionsOf ms), sortMembers (metricsOf ms),
      (nullsOf ms).mergeSort Text.codesLe⟩ := by
  rw [collect, foldl_add]
  rfl

theorem nodup_keys_filterMap {β : Type} {ms : List (String × ItemValue)} (f : ItemValue → Option β)
    (h : (ms.map (·.1)).Nodup) :
    ((ms.filterMap fun m => (f m.2).map (m.1, ·)).map (·.1)).Nodup := by
  refine h.sublist ?_
  rw [List.map_filterMap]
  induction ms with
  | nil => exact .slnil
  | cons m ms ih =>
      have ih := ih (List.nodup_cons.1 h).2
      cases hv : f m.2 with
      | none => simpa [List.filterMap_cons, hv] using ih.cons m.1
      | some b => simpa [List.filterMap_cons, hv] using ih.cons_cons m.1

theorem pairwise_codesLe_mergeSort (keys : List String) :
    (keys.mergeSort Text.codesLe).Pairwise fun a b => Text.codesLe a b = true := by
  apply List.pairwise_mergeSort
  · intro a b c hab hbc
    exact Text.lexLe_trans hab hbc
  · intro a b
    exact Bool.or_eq_true_iff.2 (Text.lexLe_total _ _)

theorem collect_congr {ms ns : List (String × ItemValue)} (hperm : ms.Perm ns)
    (hnodup : (ms.map (·.1)).Nodup) : collect ms = collect ns := by
  have hnulls : ((nullsOf ms).mergeSort Text.codesLe).Perm ((nullsOf ns).mergeSort Text.codesLe) :=
    (List.mergeSort_perm _ _).trans
      ((hperm.filterMap _).trans (List.mergeSort_perm _ _).symm)
  have hdimensions : sortMembers (dimensionsOf ms) = sortMembers (dimensionsOf ns) :=
    sortMembers_congr (hperm.filterMap _) (nodup_keys_filterMap ItemValue.text? hnodup)
  have hmetrics : sortMembers (metricsOf ms) = sortMembers (metricsOf ns) :=
    sortMembers_congr (hperm.filterMap _) (nodup_keys_filterMap ItemValue.value? hnodup)
  rw [collect_eq, collect_eq, hdimensions, hmetrics,
    List.Perm.eq_of_pairwise (fun _ _ _ _ => Text.codesLe_antisymm)
      (pairwise_codesLe_mergeSort _) (pairwise_codesLe_mergeSort _) hnulls]

section Entries

/-- The members in the order in which they overwrite each other. -/
def entries (i : Item) : List (String × ItemValue) :=
  i.metrics.map (fun m => (m.1, .metric m.2)) ++
    (i.dimensions.map (fun m => (m.1, .dimension m.2)) ++ i.nullKeys.map fun key => (key, .null))

def members (i : Item) : List (String × ItemValue) :=
  sortMembers i.entries

theorem overwriting_eq_keyed (i : Item) : i.overwriting = keyed ItemValue.encode i.entries := by
  simp only [overwriting, entries, keyed, List.map_append, List.map_map]
  rfl

theorem encode_eq_keyed (i : Item) : i.encode = .object (keyed ItemValue.encode i.members) := by
  rw [encode, overwriting_eq_keyed, members, keyed_sortMembers]

theorem perm_entries_collect {ms : List (String × ItemValue)} (h : (ms.map (·.1)).Nodup) :
    (collect ms).entries.Perm ms := by
  have hparts : (⟨dimensionsOf ms, metricsOf ms, nullsOf ms⟩ : Item).entries.Perm ms := by
    clear h
    induction ms with
    | nil => exact .nil
    | cons m ms ih =>
        obtain ⟨key, v⟩ := m
        cases v with
        | metric x => exact ih.cons _
        | dimension s => exact List.perm_middle.trans (ih.cons _)
        | null =>
            simp only [entries, ← List.append_assoc] at ih ⊢
            exact List.perm_middle.trans (ih.cons _)
  rw [collect_eq]
  refine List.Perm.trans ?_ hparts
  exact ((perm_sortMembers (nodup_keys_filterMap ItemValue.value? h)).map _).append
    (((perm_sortMembers (nodup_keys_filterMap ItemValue.text? h)).map _).append
      ((List.mergeSort_perm _ _).map _))

theorem members_collect {ms : List (String × ItemValue)} (h : Ordered ms) :
    (collect ms).members = ms := by
  have hperm := perm_entries_collect h.nodup
  rw [members, sortMembers_congr hperm ((hperm.map _).nodup_iff.2 h.nodup),
    sortMembers_of_ordered h]

end Entries

/-- Nothing is overwritten, and metrics are such that a document can hold. -/
structure Fits (i : Item) : Prop where
  collected : collect i.members = i
  metrics : ∀ m ∈ i.members, m.2.Fits

theorem Fits.ordered {i : Item} (_ : i.Fits) : Ordered i.members :=
  ordered_sortMembers _

/-- What the written form keeps of an item: null columns are gone. -/
def settled (i : Item) : Item :=
  collect (settledKeyed ItemValue.encode ItemValue.settled i.members)

theorem fits_empty : ({} : Item).Fits := by
  have hmembers : ({} : Item).members = [] := rfl
  exact ⟨by simp [hmembers, collect], by simp [hmembers]⟩

theorem fits_of_read {j : Json} {i : Item} (h : read j = .ok i) : i.Fits := by
  cases j with
  | null =>
      cases h
      exact fits_empty
  | object members =>
      cases h
      refine ⟨by rw [members_collect (ordered_sortMembers _)], fun m hm => ?_⟩
      rw [members_collect (ordered_sortMembers _)] at hm
      obtain ⟨n, -, rfl⟩ := List.mem_map.1 (mem_of_mem_sortMembers hm)
      exact ItemValue.fits_ofJson n.2
  | bool _ | number _ | string _ | array _ => cases h

variable {i : Item}

theorem codes (h : i.Fits) : Codes encode read i i i.settled where
  alike := by
    rw [encode_eq_keyed]
    exact .refl (proper_keyed h.ordered.nodup fun m _ => m.2.proper_encode)
  notNull := rfl
  reads hsettles := by
    rw [encode_eq_keyed] at hsettles ⊢
    have hsettled := settled_keyed h.ordered.nodup hsettles
    have hnodup := ((settles_keyed h.ordered.nodup).1 hsettles).2
    have hvalues : (keyed (fun v : ItemValue => v.encode.settled)
        (sortByUnits (composed ItemValue.encode i.members))).map
          (fun m => (m.1, ItemValue.ofJson m.2)) =
        (sortByUnits (composed ItemValue.encode i.members)).map fun e => (e.1, e.2.settled) := by
      rw [keyed, List.map_map]
      refine List.map_congr_left fun e he => ?_
      obtain ⟨m, hm, -, rfl⟩ := mem_composed.1 ((perm_sortByUnits _).mem_iff.1 he)
      simp only [Function.comp_apply, ItemValue.ofJson_settled (h.metrics m hm)]
    rw [hsettled, read, hvalues, sortMembers_sortByUnits hnodup, settled]

/-- No column is null, and keys, dimensions and metrics are written as they are. -/
def Lossless (i : Item) : Prop :=
  ∀ m ∈ i.members, m.2 ≠ .null ∧ Text.normal m.1 = m.1 ∧ m.2.settled = m.2

theorem settled_eq_self (h : i.Fits) : i.settled = i ↔ i.Lossless := by
  have hkeyed := settledKeyed_eq_self h.ordered ItemValue.settled_settled
    ItemValue.isNull_encode_settled
  simp only [ItemValue.isNull_encode] at hkeyed
  have hordered : Ordered (settledKeyed ItemValue.encode ItemValue.settled i.members) :=
    ordered_sortMembers _
  rw [Lossless, ← hkeyed, settled]
  constructor
  · intro heq
    rw [← members_collect hordered, heq]
  · intro heq
    rw [heq, h.collected]

end Item

end TenantQuery
