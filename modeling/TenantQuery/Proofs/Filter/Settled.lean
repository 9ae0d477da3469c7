import TenantQuery.Proofs.Filter.Evaluation

namespace TenantQuery.Filter

theorem settled_junctionOf (op : Junction) (fs : List Filter) :
    (junctionOf op fs).settled = junctionOf op (fs.map settled) := by
  rw [junctionOf, settled, settledAll_eq, junctionOf]

theorem flatten_settled (op : Junction) (f : Filter) :
    flatten op f.settled = (flatten op f).map settled := by
  induction f using Filter.induction with
  | test p => rfl
  | constant b => rfl
  | not f _ => rfl
  | absent op' =>
      rw [settled, flatten]
      split <;> rfl
  | junction op' fs ih =>
      rw [settled, flatten, flatten]
      split
      · rw [settledAll_eq, flattenAll_eq_flatMap, flattenAll_eq_flatMap, List.flatMap_map,
          List.map_flatMap]
        exact List.flatMap_congr ih
      · rw [List.map_cons, List.map_nil, settled]

theorem rejoin_settled (op : Junction) (fs : List Filter) :
    rejoin op (fs.map settled) = (rejoin op fs).map settled := by
  match fs with
  | [] | [f] => rfl
  | f :: g :: fs => exact congrArg some (settled_junctionOf op (f :: g :: fs)).symm

theorem join_settled (op : Junction) (filters : List (Option Filter)) :
    join op (filters.map (·.map settled)) = (join op filters).map settled := by
  rw [join_eq, join_eq, ← rejoin_settled, List.flatMap_map, List.map_flatMap]
  refine congrArg _ (List.flatMap_congr fun o _ => ?_)
  cases o with
  | none => rfl
  | some f => exact flatten_settled op f

theorem join_congr (op : Junction) {filters filters' : List (Option Filter)}
    (h : filters.map (·.map settled) = filters'.map (·.map settled)) :
    (join op filters).map settled = (join op filters').map settled := by
  rw [← join_settled, ← join_settled, h]

theorem complement_settled (f : Filter) : f.settled.complement = f.complement.settled := by
  cases f with
  | test p | constant b | not f => rfl
  | junction op fs => cases fs <;> rfl

theorem contribution_settled (op : Junction) (f : Filter) :
    contribution op f.settled = (contribution op f).map settled := by
  cases f with
  | test p | not f => rfl
  | constant b =>
      rw [settled, contribution]
      split <;> rfl
  | junction op' fs =>
      cases fs with
      | none =>
          rw [settled, contribution]
          split <;> rfl
      | some fs =>
          rw [settled, contribution, contribution]
          split
          · exact settledAll_eq fs
          · rw [List.map_cons, List.map_nil, settled]

theorem collapse_settled (op : Junction) (fs : List Filter) :
    collapse op (fs.map settled) = (collapse op fs).settled := by
  match fs with
  | [] | [f] => rfl
  | f :: g :: fs => exact (settled_junctionOf op (f :: g :: fs)).symm

theorem normalize_settled (f : Filter) : f.settled.normalize = f.normalize.settled := by
  induction f using Filter.induction with
  | test p => rfl
  | constant b => rfl
  | not f ih => rw [settled, normalize, normalize, ih, complement_settled]
  | absent op => rfl
  | junction op fs ih =>
      rw [settled, normalize, normalize, ← collapse_settled, settledAll_eq, normalizeAll_eq_flatMap,
        normalizeAll_eq_flatMap, List.flatMap_map, List.map_flatMap]
      refine congrArg _ (List.flatMap_congr fun f hf => ?_)
      rw [ih f hf, contribution_settled]

end TenantQuery.Filter
