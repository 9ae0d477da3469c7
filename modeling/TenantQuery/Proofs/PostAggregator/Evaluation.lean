import TenantQuery.PostAggregator.Evaluation

namespace TenantQuery

namespace Json

theorem lookup_cons_ite {α : Type} (key : String) (value : α) (members : List (String × α))
    (other : String) :
    ((key, value) :: members).lookup other =
      if other = key then some value else members.lookup other := by
  rw [List.lookup_cons]
  by_cases h : other = key
  · simp [h]
  · rw [beq_false_of_ne h, if_neg h]

/-- Putting a value under a key leaves all other keys as they were. -/
theorem lookup_insertSorted {α : Type} (key : String) (value : α) (members : List (String × α))
    (other : String) :
    (insertSorted key value members).lookup other =
      if other = key then some value else members.lookup other := by
  induction members with
  | nil => exact lookup_cons_ite key value [] other
  | cons m rest ih =>
      rw [insertSorted]
      by_cases hkey : m.1 = key
      · rw [if_pos hkey, lookup_cons_ite, lookup_cons_ite, hkey]
        by_cases h : other = key
        · rw [if_pos h, if_pos h]
        · rw [if_neg h, if_neg h, if_neg h]
      · rw [if_neg hkey]
        by_cases hle : Text.codesLe key m.1 = true
        · rw [if_pos hle, lookup_cons_ite]
        · rw [if_neg hle, lookup_cons_ite, lookup_cons_ite, ih]
          by_cases h : other = key
          · rw [if_pos h, if_pos h, if_neg (fun hm => hkey (hm.symm.trans h))]
          · rw [if_neg h, if_neg h]

end Json

namespace Row

theorem get?_set (row : Row) (name : String) (value : Float) (other : String) :
    (row.set name value).get? other = if other = name then some value else row.get? other :=
  Json.lookup_insertSorted name value row.columns other

@[simp]
theorem get?_set_self (row : Row) (name : String) (value : Float) :
    (row.set name value).get? name = some value := by
  rw [get?_set, if_pos rfl]

theorem get?_set_of_ne (row : Row) {name other : String} (value : Float) (h : other ≠ name) :
    (row.set name value).get? other = row.get? other := by
  rw [get?_set, if_neg h]

theorem get?_setAll_of_notMem {columns : List (String × Float)} {name : String}
    (h : name ∉ columns.map (·.1)) (row : Row) :
    (columns.foldl (fun row c => row.set c.1 c.2) row).get? name = row.get? name := by
  induction columns generalizing row with
  | nil => rfl
  | cons c columns ih =>
      rw [List.map_cons, List.mem_cons, not_or] at h
      rw [List.foldl_cons, ih h.2, get?_set_of_ne row c.2 h.1]

/-- Columns with distinct names all stand in the row that is made of them. -/
theorem get?_ofList {columns : List (String × Float)} (hnodup : (columns.map (·.1)).Nodup)
    {c : String × Float} (hc : c ∈ columns) : (ofList columns).get? c.1 = some c.2 := by
  rw [ofList]
  generalize (⟨[]⟩ : Row) = row
  induction columns generalizing row with
  | nil => cases hc
  | cons d columns ih =>
      rw [List.map_cons, List.nodup_cons] at hnodup
      rw [List.foldl_cons]
      rcases List.mem_cons.1 hc with rfl | hc
      · rw [get?_setAll_of_notMem hnodup.1, get?_set_self]
      · exact ih hnodup.2 hc _

end Row

namespace PostAggregator

theorem column_eq_ok {row : Row} {name : String} {value : Float} (h : row.get? name = some value) :
    column row name = .ok value := by
  rw [column, h]

theorem evaluate_access {row : Row} {name : String} {value : Float}
    (h : row.get? name = some value) : (access name).evaluate row = .ok value := by
  rw [access, evaluate, column_eq_ok h]

theorem evaluate_finalizingAccess {row : Row} {name : String} {value : Float}
    (h : row.get? name = some value) : (finalizingAccess name).evaluate row = .ok value := by
  rw [finalizingAccess, evaluate, column_eq_ok h]

/-- A value under a name is there for the post-aggregators that follow. -/
theorem evaluateAll_cons {row : Row} {p : PostAggregator} {value : Float}
    (hvalue : p.evaluate row = .ok value) (hname : p.outputName ≠ "") (ps : List PostAggregator) :
    evaluateAll row (p :: ps) = evaluateAll (row.set p.outputName value) ps := by
  rw [evaluateAll, hvalue]
  exact congrArg (evaluateAll · ps) (if_neg hname)

theorem evaluate_zScore {row : Row} (name : String) {size1 success1 size2 success2 : PostAggregator}
    {n1 k1 n2 k2 : Float} (hn1 : size1.evaluate row = .ok n1) (hk1 : success1.evaluate row = .ok k1)
    (hn2 : size2.evaluate row = .ok n2) (hk2 : success2.evaluate row = .ok k2) :
    (zScore name size1 success1 size2 success2).evaluate row = .ok (Statistics.zScore n1 k1 n2 k2) := by
  rw [evaluate, hn1, hk1, hn2, hk2]
  rfl

theorem evaluate_pValue {row : Row} (name : String) {score : PostAggregator} {z : Float}
    (hz : score.evaluate row = .ok z) :
    (pValue name score).evaluate row = .ok (Statistics.pValue z) := by
  rw [evaluate, hz]
  rfl

end PostAggregator

end TenantQuery
