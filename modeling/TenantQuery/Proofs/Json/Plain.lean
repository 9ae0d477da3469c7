import TenantQuery.Proofs.Json.Invariant

namespace TenantQuery.Json

open Outcome

def IsPlain : Json → Prop
  | .number literal => ∃ x : Double, x.isFinite = true ∧
      literal = String.ofList (Layout.document.write x)
  | .object members => (members.map (·.1)).Nodup
  | _ => True

abbrev Plain (j : Json) : Prop :=
  j.Everywhere IsPlain

theorem Plain.proper {j : Json} (h : j.Plain) : j.Proper := by
  induction j using Json.induction with
  | null | bool _ | string _ => trivial
  | number literal =>
      obtain ⟨x, -, rfl⟩ := h
      exact Layout.isLiteral_decimal _ _
  | array items ih =>
      have hitems := (everywhere_array.1 h).2
      exact everywhere_array.2 ⟨trivial, fun j hj => ih j hj (hitems j hj)⟩
  | object members ih =>
      obtain ⟨hkeys, hmembers⟩ := everywhere_object.1 h
      exact everywhere_object.2 ⟨hkeys, fun m hm => ih m hm (hmembers m hm)⟩

theorem plainMembers_eq (ms : List (String × Json)) :
    plainMembers ms = Slot.entries Slot.any ms := by
  induction ms with
  | nil => rfl
  | cons m ms ih =>
      obtain ⟨key, j⟩ := m
      rw [plainMembers, Slot.entries, ih]
      rfl

theorem plainItems_eq (js : List Json) : plainItems js = js.mapM plain := by
  induction js with
  | nil => rfl
  | cons j js ih => rw [plainItems, ih, List.mapM_cons]

theorem plain_object {ms es : List (String × Json)} :
    plain (.object ms) = .ok (.object es) ↔
      Slot.map Slot.any [] (.object ms) = .ok (some es) := by
  simp only [plain, plainMembers_eq, Slot.map, Slot.optional, membersOf, List.takeWhile_nil,
    List.nil_append, map_eq_ok, Option.some.injEq, exists_eq_right, Json.object.injEq]

theorem plain_of_plain {j k : Json} (h : plain j = .ok k) : k.Plain := by
  induction j using Json.induction generalizing k with
  | null | bool _ | string _ =>
      cases h
      trivial
  | number literal =>
      simp only [plain] at h
      split at h
      · rename_i x hx
        cases h
        exact ⟨x, isFinite_of_toDouble? hx, rfl⟩
      · cases h
  | array items ih =>
      simp only [plain, plainItems_eq] at h
      obtain ⟨ks, hks, rfl⟩ := map_eq_ok.1 h
      refine everywhere_array.2 ⟨trivial, fun k hk => ?_⟩
      obtain ⟨j, hj, hk⟩ := exists_of_mem_mapM hks k hk
      exact ih j hj hk
  | object members ih =>
      simp only [plain, plainMembers_eq] at h
      obtain ⟨es, hes, rfl⟩ := map_eq_ok.1 h
      refine everywhere_object.2 ⟨(ordered_sortMembers es).nodup, fun e he => ?_⟩
      obtain ⟨m, hm, he⟩ := Slot.Ensures.exists_of_mem_entries hes e (mem_of_mem_sortMembers he)
      exact ih m hm he

/-- What is read from the normal form of a value. -/
def replain (j : Json) : Json :=
  match plain j.settled with
  | .ok k => k
  | .error _ => j

theorem replain_eq {j k : Json} (h : plain j.settled = .ok k) : j.replain = k := by
  rw [replain, h]

theorem Plain.replain {j : Json} (h : j.Plain) : j.replain.Plain := by
  unfold Json.replain
  split
  · rename_i k hk
    exact plain_of_plain hk
  · exact h

theorem keyed_self (ms : List (String × Json)) : keyed (fun j => j) ms = ms := by
  rw [keyed]
  exact List.map_id _

theorem Plain.reread_of {j : Json} (h : j.Plain)
    (hread : j.Settles → ∃ k, plain j.settled = .ok k ∧ k.normalForm = j.normalForm) :
    Alike j j.replain ∧ (j.Settles → plain j.settled = .ok j.replain) := by
  refine ⟨⟨h.proper, h.replain.proper, fun hsettles => ?_⟩, fun hsettles => ?_⟩
  · obtain ⟨k, hk, hform⟩ := hread hsettles
    rw [replain_eq hk, hform]
  · obtain ⟨k, hk, -⟩ := hread hsettles
    rw [replain_eq hk, hk]

/-- A plain value is read from its normal form, and what is read is written as the same again. -/
theorem Plain.reread {j : Json} (h : j.Plain) :
    Alike j j.replain ∧ (j.Settles → plain j.settled = .ok j.replain) := by
  induction j using Json.induction with
  | null => exact h.reread_of fun _ => ⟨_, rfl, rfl⟩
  | bool b => exact h.reread_of fun _ => ⟨_, by rw [settled_bool]; rfl, rfl⟩
  | string s =>
      refine h.reread_of fun _ => ⟨.string (Text.normal s), by rw [settled_string]; rfl, ?_⟩
      rw [normalForm, normalForm, Text.normal_normal]
  | number literal =>
      refine h.reread_of fun _ => ?_
      obtain ⟨x, hx, rfl⟩ := h
      obtain ⟨canonical, hcanonical, hread⟩ := canonicalNumber_document hx
      have hform : (number (String.ofList (Layout.document.write x))).normalForm =
          .ok (.number canonical) :=
        normalForm_number_eq_ok.2 ⟨_, hcanonical, rfl⟩
      refine ⟨ofDouble x.settled, ?_, ?_⟩
      · simp only [settled_eq hform, plain, hread]
        rfl
      · rw [ofDouble, normalForm, normalForm, canonicalNumber_document_settled]
  | array items ih =>
      refine h.reread_of fun hsettles => ?_
      have hitems (i : Json) (hi : i ∈ items) := ih i hi ((everywhere_array.1 h).2 i hi)
      have hread : (items.map settled).mapM plain = .ok (items.map Json.replain) := by
        have hsettle := settles_array.1 hsettles
        -- What is left is about the items alone.
        clear h hsettles ih
        induction items with
        | nil => rfl
        | cons i items ih =>
            obtain ⟨hi, hitems⟩ := List.forall_mem_cons.1 hitems
            obtain ⟨hsettle, hsettles⟩ := List.forall_mem_cons.1 hsettle
            rw [List.map_cons, List.mapM_cons, hi.2 hsettle, ih hitems hsettles]
            rfl
      have halike : Alike (array (items.map fun i => i))
          (array ((items.map Json.replain).map fun i => i)) := .array fun i hi => (hitems i hi).1
      rw [List.map_id', List.map_id'] at halike
      refine ⟨_, ?_, halike.normalForm_eq hsettles⟩
      rw [settled_array hsettles, plain, plainItems_eq, hread, map_ok]
  | object members ih =>
      refine h.reread_of fun hsettles => ?_
      obtain ⟨hkeys, hmembers⟩ := everywhere_object.1 h
      have hmember (m : String × Json) (hm : m ∈ members) := ih m hm (hmembers m hm)
      have hsame := keyed_self members
      have halike : Alike (object (keyed (fun j => j) members))
          (object (keyed (fun j => j) (settledKeyed (fun j => j) Json.replain members))) :=
        alike_keyed hkeys fun m hm => (hmember m hm).1
      have hread : Slot.map Slot.any [] (object (keyed (fun j => j) members)).settled =
          .ok (some (settledKeyed (fun j => j) Json.replain members)) :=
        read_keyed hkeys (fun m hm _ hsettle => (hmember m hm).2 hsettle) (by rwa [hsame])
      rw [hsame] at halike hread
      refine ⟨_, ?_, halike.normalForm_eq hsettles⟩
      rw [keyed_self]
      rw [settled_object hkeys hsettles] at hread ⊢
      exact plain_object.2 hread

end TenantQuery.Json
