import TenantQuery.Proofs.Json.Node

namespace TenantQuery.Json

open Outcome

theorem depth_string (s : String) : (string s).depth = 0 :=
  rfl

theorem depth_number (literal : String) : (number literal).depth = 0 :=
  rfl

/-- Two values that have the same normal form, or fail to have one for the same reason, and that
nest equally deep. -/
structure Twin (j j' : Json) : Prop where
  normalForm_eq : j.normalForm = j'.normalForm
  depth_eq : j.depth = j'.depth

/-- Members of the same names, the values of which are twins. -/
abbrev Twins (ms ms' : List (String × Json)) : Prop :=
  List.Forall₂ (fun m m' => m.1 = m'.1 ∧ Twin m.2 m'.2) ms ms'

namespace Twin

theorem refl (j : Json) : Twin j j :=
  ⟨rfl, rfl⟩

theorem symm {j j' : Json} (h : Twin j j') : Twin j' j :=
  ⟨h.normalForm_eq.symm, h.depth_eq.symm⟩

theorem trans {j j' j'' : Json} (h : Twin j j') (h' : Twin j' j'') : Twin j j'' :=
  ⟨h.normalForm_eq.trans h'.normalForm_eq, h.depth_eq.trans h'.depth_eq⟩

theorem canonical_eq {j j' : Json} (h : Twin j j') : j.canonical = j'.canonical := by
  rw [canonical, canonical, h.normalForm_eq, h.depth_eq]

/-- A value that has a normal form is a twin of those that are alike. -/
theorem of_alike {j j' : Json} (h : Alike j j') (hsettles : j.Settles) : Twin j j' := by
  have heq := h.normalForm_eq hsettles
  have hform := hsettles.normalForm_eq
  exact ⟨heq.symm, (h.proper.depth_eq hform).symm.trans (h.proper'.depth_eq (heq.trans hform))⟩

theorem string (s : String) : Twin (.string s) (.string (Text.normal s)) :=
  ⟨by rw [normalForm, normalForm, Text.normal_normal], by rw [depth_string, depth_string]⟩

theorem double (x : Double) : Twin (ofDouble x) (ofDouble x.settled) :=
  ⟨by rw [ofDouble, ofDouble, normalForm, normalForm, canonicalNumber_document_settled],
    by rw [ofDouble, ofDouble, depth_number, depth_number]⟩

theorem array {js js' : List Json} (h : List.Forall₂ Twin js js') :
    Twin (.array js) (.array js') := by
  have hitems : (∀ index, normalItems index js = normalItems index js') ∧
      itemsDepth js = itemsDepth js' := by
    induction h with
    | nil => exact ⟨fun _ => rfl, rfl⟩
    | cons hj _ ih =>
        refine ⟨fun index => ?_, ?_⟩
        · rw [normalItems, normalItems, hj.normalForm_eq, ih.1]
        · rw [itemsDepth, itemsDepth, hj.depth_eq, ih.2]
  exact ⟨by rw [normalForm, normalForm, hitems.1], by rw [depth, depth, hitems.2]⟩

theorem object {ms ms' : List (String × Json)} (h : Twins ms ms') :
    Twin (.object ms) (.object ms') := by
  have hmembers : normalMembers ms = normalMembers ms' ∧ membersDepth ms = membersDepth ms' := by
    induction h with
    | nil => exact ⟨rfl, rfl⟩
    | cons hm _ ih =>
        refine ⟨?_, ?_⟩
        · rw [normalMembers, normalMembers, hm.1, hm.2.normalForm_eq, ih.1]
        · rw [membersDepth, membersDepth, hm.2.depth_eq, ih.2]
  exact ⟨by rw [normalForm, normalForm, hmembers.1], by rw [depth, depth, hmembers.2]⟩

theorem tagged {type : String} {ms ms' : List (String × Json)} (h : Twins ms ms') :
    Twin (tagged type ms) (tagged type ms') :=
  .object (.cons ⟨rfl, .refl _⟩ h)

end Twin

section Settling

variable {α : Type} {encode : α → Json} {settle : α → α} {name : String}
  {ms ms' : List (String × Json)}

theorem Twins.same {j j' : Json} (hj : Twin j j') (h : Twins ms ms') :
    Twins ((name, j) :: ms) ((name, j') :: ms') :=
  .cons ⟨rfl, hj⟩ h

theorem Twins.refl (ms : List (String × Json)) : Twins ms ms :=
  List.forall₂_same.2 fun _ _ => ⟨rfl, .refl _⟩

theorem Twins.append {ns ns' : List (String × Json)} (h : Twins ms ms') (h' : Twins ns ns') :
    Twins (ms ++ ns) (ms' ++ ns') :=
  List.rel_append h h'

theorem Twins.text {s : String} (h : Twins ms ms') :
    Twins ((name, .string s) :: ms) ((name, .string (Text.normal s)) :: ms') :=
  .same (.string s) h

theorem twin_items {as : List α} (h : ∀ a ∈ as, Twin (encode a) (encode (settle a))) :
    Twin (.array (as.map encode)) (.array ((as.map settle).map encode)) := by
  refine .array ?_
  rw [List.map_map, List.forall₂_map_left_iff, List.forall₂_map_right_iff, List.forall₂_same]
  exact h

theorem twin_listOrNull {v : Option (List α)}
    (h : ∀ as ∈ v, ∀ a ∈ as, Twin (encode a) (encode (settle a))) :
    Twin (listOrNull encode v) (listOrNull encode (v.map (·.map settle))) := by
  cases v with
  | none => exact .refl _
  | some as => exact twin_items (h as rfl)

theorem twins_ifText (v : String) : Twins (ifText name v) (ifText name (Text.normal v)) := by
  by_cases hv : v = ""
  · subst hv
    rw [Text.normal_eq_empty.2 rfl]
    exact .refl _
  · rw [ifText, ifText, if_neg hv, if_neg (mt Text.normal_eq_empty.1 hv)]
    exact .same (.string v) .nil

theorem twins_ifSome {v : Option α} (h : ∀ a ∈ v, Twin (encode a) (encode (settle a))) :
    Twins (ifSome name encode v) (ifSome name encode (v.map settle)) := by
  cases v with
  | none => exact .nil
  | some a => exact .same (h a rfl) .nil

theorem twins_ifSome_text (v : Option String) :
    Twins (ifSome name .string v) (ifSome name .string (v.map Text.normal)) :=
  twins_ifSome fun s _ => .string s

theorem twin_texts (v : Option (List String)) :
    Twin (listOrNull .string v) (listOrNull .string (v.map (·.map Text.normal))) :=
  twin_listOrNull fun _ _ s _ => .string s

theorem twins_ifAny {v : Option (List α)}
    (h : ∀ as ∈ v, ∀ a ∈ as, Twin (encode a) (encode (settle a))) :
    Twins (ifAny name encode v) (ifAny name encode ((present v).map (·.map settle))) := by
  match v with
  | none | some [] => exact .nil
  | some (a :: as) => exact .same (twin_items (h (a :: as) rfl)) .nil

end Settling

end TenantQuery.Json
