import TenantQuery.Proofs.Filter.Normal

namespace TenantQuery.Filter

variable {op : Junction}

theorem flatten_of_ne {f : Filter} (h : ∀ gs, f ≠ .junction op gs) : flatten op f = [f] := by
  match f with
  | .test p | .not g | .constant b => rw [flatten]
  | .junction op' none | .junction op' (some gs) =>
      have hop : op' ≠ op := by
        rintro rfl
        exact h _ rfl
      rw [flatten, if_neg hop]

theorem ne_of_mem_flatten {f g : Filter} (hg : g ∈ flatten op f) (gs : Option (List Filter)) :
    g ≠ .junction op gs := by
  induction f using Filter.induction with
  | test p | constant b | not f _ =>
      rw [flatten, List.mem_singleton] at hg
      simp [hg]
  | absent op' =>
      by_cases hop : op' = op
      · rw [flatten, if_pos hop] at hg
        simp at hg
      · rw [flatten, if_neg hop, List.mem_singleton] at hg
        simp [hg, hop]
  | junction op' fs ih =>
      by_cases hop : op' = op
      · rw [flatten, if_pos hop, flattenAll_eq_flatMap] at hg
        obtain ⟨f, hf, hg⟩ := List.mem_flatMap.1 hg
        exact ih f hf hg
      · rw [flatten, if_neg hop, List.mem_singleton] at hg
        simp [hg, hop]

theorem ne_of_mem_operands {filters : List (Option Filter)} {g : Filter}
    (hg : g ∈ filters.flatMap (operandsOf op)) (gs : Option (List Filter)) :
    g ≠ .junction op gs := by
  obtain ⟨o, -, hg⟩ := List.mem_flatMap.1 hg
  cases o with
  | none => simp [operandsOf] at hg
  | some f => exact ne_of_mem_flatten hg gs

theorem operandsOf_rejoin {fs : List Filter} (h : ∀ f ∈ fs, ∀ gs, f ≠ .junction op gs) :
    operandsOf op (rejoin op fs) = fs := by
  match fs with
  | [] => rfl
  | [f] => exact flatten_of_ne (h f (List.mem_singleton_self f))
  | f₁ :: f₂ :: fs =>
      have hsingle : ∀ f ∈ f₁ :: f₂ :: fs, flatten op f = [f] := fun f hf => flatten_of_ne (h f hf)
      rw [rejoin_of_two_le (by simp), operandsOf, junctionOf, flatten, if_pos rfl,
        flattenAll_eq_flatMap, List.flatMap_congr hsingle, List.flatMap_singleton']

theorem operandsOf_join (filters : List (Option Filter)) :
    operandsOf op (join op filters) = filters.flatMap (operandsOf op) := by
  rw [join_eq]
  apply operandsOf_rejoin
  intro f hf
  exact ne_of_mem_operands hf

theorem join_map_join (groups : List (List (Option Filter))) :
    join op (groups.map (join op)) = join op groups.flatten := by
  have hgroups : (groups.map (join op)).flatMap (operandsOf op) =
      groups.flatten.flatMap (operandsOf op) := by
    rw [← List.flatMap_id, List.flatMap_assoc, List.flatMap_map]
    exact List.flatMap_congr fun filters _ => operandsOf_join filters
  rw [join_eq, join_eq, hgroups]

theorem operands_of_join {filters : List (Option Filter)} {operands : Option (List Filter)}
    (h : join op filters = some (.junction op operands)) :
    2 ≤ (operands.getD []).length ∧ ∀ f ∈ operands.getD [], ∀ gs, f ≠ .junction op gs := by
  have hflat (f) (hf : f ∈ filters.flatMap (operandsOf op)) := ne_of_mem_operands hf
  rw [join_eq] at h
  match hfs : filters.flatMap (operandsOf op) with
  | [] => simp [hfs, rejoin] at h
  | [f] =>
      -- One operand stands for itself, and it is no junction of this kind.
      obtain rfl : f = .junction op operands := by simpa [hfs, rejoin] using h
      exact absurd rfl (hflat _ (by simp [hfs]) operands)
  | f₁ :: f₂ :: fs =>
      obtain rfl : some (f₁ :: f₂ :: fs) = operands := by
        simpa [hfs, rejoin, junctionOf] using h
      refine ⟨by simp, fun f hf => hflat f ?_⟩
      rw [hfs]
      exact hf

/-- Conjunction and disjunction of filters, of which some may be absent, are associative, and each
gives a junction that has no junction of the same kind among its operands. -/
theorem joining_associative (xs ys : List (Option Filter)) :
    (allOf [allOf xs, allOf ys] = allOf (xs ++ ys) ∧
      ∀ operands, allOf xs = some (.junction .all operands) →
        2 ≤ (operands.getD []).length ∧ ∀ f ∈ operands.getD [], ∀ gs, f ≠ .junction .all gs) ∧
    anyOf [anyOf xs, anyOf ys] = anyOf (xs ++ ys) ∧
      ∀ operands, anyOf xs = some (.junction .any operands) →
        2 ≤ (operands.getD []).length ∧ ∀ f ∈ operands.getD [], ∀ gs, f ≠ .junction .any gs := by
  have hgroups (op : Junction) : join op [join op xs, join op ys] = join op (xs ++ ys) := by
    have h : join op ([xs, ys].map (join op)) = join op [xs, ys].flatten := join_map_join [xs, ys]
    rwa [List.flatten_cons, List.flatten_cons, List.flatten_nil, List.append_nil] at h
  exact ⟨⟨hgroups .all, fun _ h => operands_of_join h⟩, hgroups .any, fun _ h => operands_of_join h⟩

def mixedFilters : List (Option Filter) :=
  [none, some (.junctionOf .all [.selector "os" "ios", .junctionOf .all [.constant true]]),
    some (.junctionOf .any [.junction .any none, .selector "plan" "pro"])]

theorem joining_associative_mixedFilters :
    ∃ operands, allOf mixedFilters = some (.junction .all operands) ∧
      allOf [allOf mixedFilters, allOf mixedFilters] = allOf (mixedFilters ++ mixedFilters) ∧
      2 ≤ (operands.getD []).length ∧ ∀ f ∈ operands.getD [], ∀ gs, f ≠ .junction .all gs := by
  obtain ⟨⟨hgroups, hoperands⟩, -⟩ := joining_associative mixedFilters mixedFilters
  have hjoined : allOf mixedFilters = some (junctionOf .all [.selector "os" "ios", .constant true,
      .junctionOf .any [.junction .any none, .selector "plan" "pro"]]) := rfl
  exact ⟨_, hjoined, hgroups, hoperands _ hjoined⟩

end TenantQuery.Filter
