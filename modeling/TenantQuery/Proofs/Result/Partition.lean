import TenantQuery.Proofs.Json.Canonical
import TenantQuery.Proofs.PostAggregator.Evaluation
import TenantQuery.Proofs.Result.Item

namespace TenantQuery

namespace Text

theorem lt_of_codesLe {a b : String} (hle : codesLe a b = true) (hne : a ≠ b) : a < b :=
  lt_of_lexLe (fun _ _ => Char.toNat_inj.1) id hle fun heq => hne (String.toList_inj.1 heq)

end Text

namespace Json

variable {α β : Type}

theorem lookup_sortMembers (ms : List (String × α)) (key : String) :
    (sortMembers ms).lookup key = lastOf ms key := by
  induction ms using List.reverseRecOn with
  | nil => rfl
  | append_singleton ms m ih =>
      simp only [sortMembers, lastOf, List.foldl_append, List.foldl_cons, List.foldl_nil] at ih ⊢
      rw [lookup_insertSorted, ih]
      simp only [eq_comm]

theorem lastOf_map (f : α → β) (ms : List (String × α)) (key : String) :
    lastOf (ms.map fun m => (m.1, f m.2)) key = (lastOf ms key).map f := by
  induction ms with
  | nil => rfl
  | cons m ms ih =>
      rw [List.map_cons, lastOf_cons, lastOf_cons, ih]
      by_cases hkey : m.1 = key <;> cases lastOf ms key <;> simp [hkey]

theorem lookup_eq_some {ms : List (String × α)} (h : (ms.map (·.1)).Nodup) {key : String} {a : α} :
    ms.lookup key = some a ↔ (key, a) ∈ ms := by
  induction ms with
  | nil => simp
  | cons m ms ih =>
      obtain ⟨hm, hms⟩ := List.nodup_cons.1 h
      obtain ⟨key', b⟩ := m
      rw [lookup_cons_ite]
      by_cases hkey : key = key'
      · subst hkey
        have hmem : (key, a) ∉ ms := fun ha => hm (List.mem_map.2 ⟨_, ha, rfl⟩)
        simp [hmem, eq_comm]
      · simp [hkey, ih hms]

theorem mem_keys_iff {ms : List (String × α)} {key : String} :
    key ∈ ms.map (·.1) ↔ ∃ a, lastOf ms key = some a := by
  rw [← Option.ne_none_iff_exists', ne_eq, lastOf_eq_none]
  simp

end Json

open Json Outcome

theorem ItemValue.ofJson_encode {v : ItemValue} (h : v.Fits) : ofJson v.encode = v := by
  cases v with
  | dimension s => rfl
  | metric x => simp only [encode, ofDouble, ofJson, Layout.toDouble?_write _ (h x rfl)]
  | null => rfl

namespace Item

theorem parse_encode {i : Item} (h : i.Fits) : (Json.parse i.encode.encode >>= read) = .ok i := by
  have hkeys : (i.members.map fun m => (m.1, ItemValue.ofJson m.2.encode)) = i.members := by
    refine (List.map_congr_left fun m hm => ?_).trans (List.map_id _)
    rw [ItemValue.ofJson_encode (h.metrics m hm)]
    rfl
  have hdepth : i.encode.depth ≤ maxDepth := by
    rw [encode_eq_keyed]
    refine Nat.succ_le_of_lt (Nat.lt_of_le_of_lt (membersDepth_le_iff.2 fun m hm => ?_)
      (show 0 < maxDepth by decide))
    obtain ⟨⟨key, v⟩, -, rfl⟩ := List.mem_map.1 hm
    cases v <;> rfl
  have hproper : i.encode.Proper := by
    rw [encode_eq_keyed]
    exact proper_keyed h.ordered.nodup fun m _ => m.2.proper_encode
  rw [(Json.parse_encode_eq_ok hproper.spelled).2 ⟨rfl, hdepth⟩, ok_bind, encode_eq_keyed, read,
    keyed, List.map_map]
  simp only [Function.comp_def, hkeys, sortMembers_of_ordered h.ordered, h.collected]

section Collecting

variable {ms : List (String × ItemValue)}

theorem lookup_sortMembers_filterMap {β : Type} {f : ItemValue → Option β}
    (h : (ms.map (·.1)).Nodup) (key : String) :
    (sortMembers (ms.filterMap fun m => (f m.2).map (m.1, ·))).lookup key =
      ms.lookup key >>= f := by
  ext b
  rw [lookup_eq_some (ordered_sortMembers _).nodup,
    (perm_sortMembers (nodup_keys_filterMap f h)).mem_iff, List.mem_filterMap,
    Option.bind_eq_bind, Option.bind_eq_some_iff]
  constructor
  · rintro ⟨⟨key', v⟩, hm, hv⟩
    obtain ⟨b', hb', heq⟩ := Option.map_eq_some_iff.1 hv
    cases heq
    exact ⟨v, (lookup_eq_some h).2 hm, hb'⟩
  · rintro ⟨v, hv, hb⟩
    exact ⟨(key, v), (lookup_eq_some h).1 hv, by simp [hb]⟩

theorem dimension?_collect (h : (ms.map (·.1)).Nodup) (key : String) :
    (collect ms).dimension? key = ms.lookup key >>= ItemValue.text? := by
  rw [collect_eq]
  exact lookup_sortMembers_filterMap h key

theorem metric?_collect (h : (ms.map (·.1)).Nodup) (key : String) :
    (collect ms).metric? key = ms.lookup key >>= ItemValue.value? := by
  rw [collect_eq]
  exact lookup_sortMembers_filterMap h key

theorem mem_nullKeys_collect (h : (ms.map (·.1)).Nodup) {key : String} :
    key ∈ (collect ms).nullKeys ↔ ms.lookup key = some .null := by
  rw [collect_eq, List.mem_mergeSort, nullsOf, List.mem_filterMap, lookup_eq_some h]
  constructor
  · rintro ⟨⟨key', v⟩, hm, hv⟩
    obtain ⟨rfl, rfl⟩ : v = .null ∧ key' = key := by simpa using hv
    exact hm
  · intro hm
    exact ⟨_, hm, rfl⟩

theorem nodup_keys_overwriting (h : (ms.map (·.1)).Nodup) :
    ((collect ms).overwriting.map (·.1)).Nodup := by
  rw [overwriting_eq_keyed, keys_keyed]
  exact ((perm_entries_collect h).map _).nodup_iff.2 h

theorem pairwise_nullKeys (h : (ms.map (·.1)).Nodup) :
    (collect ms).nullKeys.Pairwise (· < ·) := by
  have hnodup : (collect ms).nullKeys.Nodup := by
    have hkeys := nodup_keys_overwriting h
    simp only [overwriting, List.map_append, List.map_map] at hkeys
    simpa [Function.comp_def] using hkeys.of_append_right.of_append_right
  have hsorted : (collect ms).nullKeys.Pairwise fun a b => Text.codesLe a b = true := by
    rw [collect_eq]
    exact pairwise_codesLe_mergeSort _
  exact hsorted.imp₂ (fun _ _ hle hne => Text.lt_of_codesLe hle hne) hnodup

end Collecting

section Reading

variable {members : List (String × Json)} {i : Item}

/-- The members of an object by the kinds of their values, each key once. -/
def classified (members : List (String × Json)) : List (String × ItemValue) :=
  sortMembers (members.map fun m => (m.1, ItemValue.ofJson m.2))

theorem nodup_classified (members : List (String × Json)) :
    ((classified members).map (·.1)).Nodup :=
  (ordered_sortMembers _).nodup

theorem lookup_classified (members : List (String × Json)) (key : String) :
    (classified members).lookup key = (lastOf members key).map ItemValue.ofJson := by
  rw [classified, lookup_sortMembers]
  exact lastOf_map ItemValue.ofJson members key

theorem dimension?_eq_some {key s : String} :
    (collect (classified members)).dimension? key = some s ↔
      lastOf members key = some (.string s) := by
  rw [dimension?_collect (nodup_classified members), lookup_classified]
  rcases lastOf members key with _ | j
  · simp
  · cases j with
    | number literal =>
        cases hx : toDouble? literal <;> simp [ItemValue.ofJson, ItemValue.text?, hx]
    | null | bool _ | string _ | array _ | object _ => simp [ItemValue.ofJson, ItemValue.text?]

theorem metric?_eq_some {key : String} {x : Double} :
    (collect (classified members)).metric? key = some x ↔
      ∃ literal, lastOf members key = some (.number literal) ∧ toDouble? literal = some x := by
  rw [metric?_collect (nodup_classified members), lookup_classified]
  rcases lastOf members key with _ | j
  · simp
  · cases j with
    | number literal =>
        cases hx : toDouble? literal <;> simp [ItemValue.ofJson, ItemValue.value?, hx]
    | null | bool _ | string _ | array _ | object _ => simp [ItemValue.ofJson, ItemValue.value?]

/-- Each key is in one of the three parts only. -/
theorem parts_cases (members : List (String × Json)) (key : String) :
    let i := collect (classified members)
    (key ∈ members.map (·.1) ↔
        (i.dimension? key).isSome ∨ (i.metric? key).isSome ∨ key ∈ i.nullKeys) ∧
      ¬ ((i.dimension? key).isSome ∧ (i.metric? key).isSome) ∧
      ¬ ((i.dimension? key).isSome ∧ key ∈ i.nullKeys) ∧
      ¬ ((i.metric? key).isSome ∧ key ∈ i.nullKeys) := by
  intro i
  have hnodup := nodup_classified members
  rw [dimension?_collect hnodup, metric?_collect hnodup, mem_nullKeys_collect hnodup,
    lookup_classified, mem_keys_iff]
  rcases lastOf members key with _ | j
  · simp
  · cases hv : ItemValue.ofJson j <;> simp [hv, ItemValue.text?, ItemValue.value?]

/-- Objects are items. Every key of the object is that of a dimension, of a metric or of a null, and
of only one of them, which the last value of the key decides: a string is a dimension and a number
that a double can hold a metric. The members are collected in any order. The nulls are in strict
order. The text of the item, for which dimensions are written over metrics and nulls over both
without one ever overwriting another, is read as the item. -/
theorem members_partitioned {text : String} (h : Json.parse text = .ok (.object members)) :
    ∃ i, (Json.parse text >>= read) = .ok i ∧
      (∀ ms, ms.Perm (classified members) → collect ms = i) ∧
      (∀ key, key ∈ members.map (·.1) ↔
        (i.dimension? key).isSome ∨ (i.metric? key).isSome ∨ key ∈ i.nullKeys) ∧
      (∀ key, ¬ ((i.dimension? key).isSome ∧ (i.metric? key).isSome) ∧
        ¬ ((i.dimension? key).isSome ∧ key ∈ i.nullKeys) ∧
        ¬ ((i.metric? key).isSome ∧ key ∈ i.nullKeys)) ∧
      (∀ key s, i.dimension? key = some s ↔ lastOf members key = some (.string s)) ∧
      (∀ key x, i.metric? key = some x ↔
        ∃ literal, lastOf members key = some (.number literal) ∧ toDouble? literal = some x) ∧
      i.nullKeys.Pairwise (· < ·) ∧
      i.encode = .object (sortMembers i.overwriting) ∧ (i.overwriting.map (·.1)).Nodup ∧
      (Json.parse i.encode.encode >>= read) = .ok i := by
  have hread : read (.object members) = .ok (collect (classified members)) := rfl
  have hnodup := nodup_classified members
  refine ⟨_, by rw [h, ok_bind, hread], fun ms hms => ?_, fun key => (parts_cases members key).1,
    fun key => (parts_cases members key).2, fun key s => dimension?_eq_some,
    fun key x => metric?_eq_some, pairwise_nullKeys hnodup, rfl, nodup_keys_overwriting hnodup,
    parse_encode (fits_of_read hread)⟩
  exact collect_congr hms ((hms.map _).nodup_iff.2 hnodup)

/-- Members of every kind. One key stands twice, and one number is past all doubles. -/
def motley : List (String × Json) :=
  [("os", .string "ios"), ("n", .number "-0.0"), ("os", .bool true), ("big", .number "1e400"),
    ("id", .string "7"), ("at", .object [])]

theorem members_partitioned_motley :
    Json.parse (Json.object motley).encode = .ok (.object motley) ∧
      ∃ i, (Json.parse (Json.object motley).encode >>= read) = .ok i ∧
        i.dimension? "id" = some "7" ∧ "os" ∈ i.nullKeys ∧
        (Json.parse i.encode.encode >>= read) = .ok i := by
  have hspelled : (Json.object motley).Spelled := by
    simp only [motley, HasLiterals, Everywhere, EverywhereMembers, true_and, and_true]
    exact ⟨by decide, by decide⟩
  have hparse := (Json.parse_encode_eq_ok hspelled).2 ⟨rfl, by decide⟩
  obtain ⟨i, hread, -, hkeys, -, hdimension, hmetric, -, -, -, hback⟩ := members_partitioned hparse
  refine ⟨hparse, i, hread, (hdimension "id" "7").2 rfl, ?_, hback⟩
  rcases (hkeys "os").1 (by decide) with hos | hos | hos
  · obtain ⟨s, hs⟩ := Option.isSome_iff_exists.1 hos
    cases (hdimension "os" s).1 hs
  · obtain ⟨x, hx⟩ := Option.isSome_iff_exists.1 hos
    obtain ⟨literal, hlast, -⟩ := (hmetric "os" x).1 hx
    cases hlast
  · exact hos

end Reading

end Item

end TenantQuery
