import TenantQuery.Proofs.Filter.Evaluation

namespace TenantQuery.Filter

theorem windows_junctionOf (op : Junction) (fs : List Filter) :
    (junctionOf op fs).windows = fs.flatMap windows := by
  rw [junctionOf, windows, windowsAll_eq]

theorem windows_flatten (op : Junction) (f : Filter) :
    (flatten op f).flatMap windows = f.windows := by
  induction f using Filter.induction with
  | test p => exact List.append_nil _
  | constant b => rfl
  | not f _ => exact List.append_nil _
  | absent op' =>
      by_cases h : op' = op
      · rw [flatten, if_pos h]
        rfl
      · rw [flatten, if_neg h]
        rfl
  | junction op' fs ih =>
      by_cases h : op' = op
      · rw [flatten, if_pos h, flattenAll_eq_flatMap, List.flatMap_assoc, windows, windowsAll_eq]
        exact List.flatMap_congr ih
      · rw [flatten, if_neg h]
        exact List.append_nil _

theorem windows_rejoin {op : Junction} {fs : List Filter} {f : Filter} (h : rejoin op fs = some f) :
    f.windows = fs.flatMap windows := by
  match fs with
  | [] => cases h
  | [g] =>
      cases h
      exact (List.append_nil _).symm
  | g :: g' :: gs =>
      cases h
      exact windows_junctionOf op _

/-- The windows of joined filters are those of the filters. -/
theorem windows_join {op : Junction} {fs : List (Option Filter)} {f : Filter}
    (h : join op fs = some f) : f.windows = (fs.flatMap Option.toList).flatMap windows := by
  rw [windows_rejoin h]
  clear h
  induction fs with
  | nil => rfl
  | cons g fs ih =>
      rw [List.flatMap_cons, List.flatMap_append, ih, List.flatMap_cons, List.flatMap_append]
      cases g with
      | none => rfl
      | some g => simp [windows_flatten]

theorem windows_complement (f : Filter) : f.complement.windows = f.windows := by
  cases f <;> rfl

theorem windows_contribution (op : Junction) (f : Filter) :
    (contribution op f).flatMap windows = f.windows := by
  cases f with
  | test p => exact List.append_nil _
  | not f => exact List.append_nil _
  | constant b =>
      rw [contribution]
      split <;> rfl
  | junction op' fs =>
      rw [contribution]
      split
      · cases fs with
        | none => rfl
        | some fs => rw [Option.getD_some, windows, windowsAll_eq]
      · exact List.append_nil _

theorem windows_collapse (op : Junction) (fs : List Filter) :
    (collapse op fs).windows = fs.flatMap windows := by
  match fs with
  | [] => rfl
  | [g] => exact (List.append_nil _).symm
  | g :: g' :: gs => exact windows_junctionOf op _

theorem windows_normalize (f : Filter) : f.normalize.windows = f.windows := by
  induction f using Filter.induction with
  | test p => rfl
  | constant b => rfl
  | not f ih => rw [normalize, windows_complement, ih, windows]
  | absent op => rfl
  | junction op fs ih =>
      rw [normalize, windows_collapse, normalizeAll_eq_flatMap, List.flatMap_assoc, windows,
        windowsAll_eq]
      refine List.flatMap_congr fun f hf => ?_
      rw [windows_contribution, ih f hf]

end TenantQuery.Filter
