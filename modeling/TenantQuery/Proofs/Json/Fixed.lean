import TenantQuery.Proofs.Json.Canonical

namespace TenantQuery.Json

open Outcome

theorem canonicalDouble_settled (x : Double) : canonicalDouble x.settled = canonicalDouble x := by
  unfold Double.settled
  split
  · rename_i hzero
    simp only [canonicalDouble, hzero, if_true]
    rfl
  · rfl

theorem canonicalDouble_ne_minus_zero {x : Double} (hx : x.isFinite = true) :
    canonicalDouble x ≠ "-0" := by
  intro h
  have hread := toDouble?_canonicalDouble hx
  rw [h, toDouble?_minus_zero, Option.some.injEq] at hread
  have hzero : x.isZero = true := by
    by_contra hzero
    rw [Double.settled, if_neg hzero] at hread
    rw [← hread] at hzero
    exact hzero (by decide)
  rw [canonicalDouble, if_pos hzero] at h
  exact absurd h (by decide)

theorem canonicalNumber_canonicalDouble {x : Double} (hx : x.isFinite = true) :
    canonicalNumber (canonicalDouble x) = .ok (canonicalDouble x) := by
  unfold canonicalNumber
  split
  · rw [toDouble?_canonicalDouble hx]
    simp only [canonicalDouble_settled]
  · rw [if_neg (canonicalDouble_ne_minus_zero hx)]

theorem canonicalNumber_canonical {literal canonical : String}
    (h : canonicalNumber literal = .ok canonical) : canonicalNumber canonical = .ok canonical := by
  unfold canonicalNumber at h
  split at h
  · split at h
    · rename_i x hx
      cases h
      exact canonicalNumber_canonicalDouble (isFinite_of_toDouble? hx)
    · cases h
  · rename_i hwhole
    split at h
    · cases h
      decide
    · rename_i hminus
      cases h
      rw [canonicalNumber, if_neg hwhole, if_neg hminus]

theorem normalForm_object_self {members : List (String × Json)} (hstrict : Strict members)
    (hplain : ∀ m ∈ members, Text.normal m.1 = m.1)
    (hvalues : ∀ m ∈ members, m.2.isNull = false ∧ m.2.normalForm = .ok m.2) :
    (object members).normalForm = .ok (object members) := by
  have hkeys : (members.map (·.1)).Nodup :=
    List.pairwise_map.2 (hstrict.imp fun hlt heq => absurd (heq ▸ hlt) (lt_irrefl _))
  have hkept : kept members = members := by
    have hfilter : members.filter (fun m => !m.2.settled.isNull) = members :=
      List.filter_eq_self.2 fun m hm => by simp [(hvalues m hm).1]
    rw [kept, hfilter]
    conv_rhs => rw [← List.map_id members]
    refine List.map_congr_left fun m hm => ?_
    rw [hplain m hm, settled_eq (hvalues m hm).2]
    rfl
  rw [normalForm_object_eq_ok, lastWins_of_nodup hkeys, hkept]
  refine ⟨fun m hm => ⟨_, (hvalues m hm).2⟩, hkeys, ?_⟩
  rw [Strict.eq (strict_sortByUnits hkeys) hstrict fun m => (perm_sortByUnits members).mem_iff]

theorem Settles.normalForm_settled {j : Json} (h : j.Settles) :
    j.settled.normalForm = .ok j.settled := by
  induction j using Json.induction with
  | null => rfl
  | bool b => simp [normalForm]
  | string s => rw [settled_string, normalForm, Text.normal_normal]
  | number literal =>
      obtain ⟨canonical, hcanonical, hform⟩ := normalForm_number_eq_ok.1 h.normalForm_eq
      rw [hform]
      exact normalForm_number_eq_ok.2 ⟨_, canonicalNumber_canonical hcanonical, rfl⟩
  | array items ih =>
      rw [settled_array h, normalForm_array_eq_ok, List.forall_mem_map, List.map_map]
      have hitems := settles_array.1 h
      refine ⟨fun i hi => ⟨_, ih i hi (hitems i hi)⟩, ?_⟩
      have hagain : items.map (settled ∘ settled) = items.map settled :=
        List.map_congr_left fun i hi => settled_eq (ih i hi (hitems i hi))
      rw [hagain]
  | object members ih =>
      obtain ⟨hsettles, hnodup, hform⟩ := normalForm_object_eq_ok.1 h.normalForm_eq
      rw [hform]
      have hmem {m : String × Json} (hm : m ∈ sortByUnits (kept (lastWins members))) :=
        mem_kept.1 ((perm_sortByUnits _).mem_iff.1 hm)
      refine normalForm_object_self (strict_sortByUnits hnodup) (fun m hm => ?_) fun m hm => ?_
      · obtain ⟨n, -, -, rfl⟩ := hmem hm
        exact Text.normal_normal _
      · obtain ⟨n, hn, hnull, rfl⟩ := hmem hm
        exact ⟨hnull, ih n (lastWins_subset members hn) (hsettles n hn)⟩

theorem canonicalize_canonical {j : Json} (hj : j.Spelled) {text : String}
    (h : j.canonical = .ok text) : canonicalize text = .ok text := by
  obtain ⟨hdepth, hsettles, rfl⟩ := canonical_eq_ok.1 h
  have hspelled : j.settled.Spelled := (hj.proper hsettles.normalForm_eq).spelled
  have hagain := hsettles.normalForm_settled
  refine canonicalize_eq_ok.2 ⟨j.settled, document_writePlain hspelled,
    hsettles.normalOf.depth_le.trans hdepth, ⟨_, hagain⟩, ?_⟩
  rw [settled_eq hagain]

/-- The canonical form of a text is its own canonical form. -/
theorem canonicalize_idempotent {text out : String} (h : canonicalize text = .ok out) :
    canonicalize out = .ok out := by
  obtain ⟨j, hdocument, hdepth, hsettles, rfl⟩ := canonicalize_eq_ok.1 h
  exact canonicalize_canonical hdocument.spelled (canonical_eq_ok.2 ⟨hdepth, hsettles, rfl⟩)

def looseText : String :=
  " \x7b\"b\" : [1.50e1, -0.0, 12345678.5, 1E21, -0, null], \"c\":null, \"\\u0061\":\"\\/\\t\"\x7d"

def tightText : String :=
  "\x7b\"a\":\"/\\t\",\"b\":[15,0,1.23456785e+07,1e+21,0,null]\x7d"

theorem canonicalize_idempotent_looseText :
    canonicalize looseText = .ok tightText ∧ canonicalize tightText = .ok tightText := by
  obtain ⟨out, hout⟩ := exists_of_isOk (show (canonicalize looseText).isOk = true by decide +kernel)
  have hform : (canonicalize looseText).toOption = some tightText := by decide +kernel
  obtain rfl : out = tightText := by
    rw [hout] at hform
    exact Option.some.inj hform
  exact ⟨hout, canonicalize_idempotent hout⟩

end TenantQuery.Json
