import TenantQuery.Filter.Combine
import TenantQuery.Proofs.Filter.Codec

namespace TenantQuery

def Junction.combine : Junction → List Bool → Bool
  | .all, answers => answers.all id
  | .any, answers => answers.any id

namespace Junction

variable (op : Junction)

@[simp] theorem combine_nil : op.combine [] = op.unit := by
  cases op <;> rfl

@[simp] theorem combine_singleton (answer : Bool) : op.combine [answer] = answer := by
  cases op <;> simp [combine]

theorem combine_flatMap {α : Type} (group : α → List Bool) (as : List α) :
    op.combine (as.flatMap group) = op.combine (as.map fun a => op.combine (group a)) := by
  cases op with
  | all =>
      rw [combine, combine, List.all_flatMap, List.all_map]
      rfl
  | any =>
      rw [combine, combine, List.any_flatMap, List.any_map]
      rfl

end Junction

namespace Filter

mutual

/-- Whether a filter matches the row that gives these answers to the tests. -/
def eval (answer : Predicate → Bool) : Filter → Bool
  | .test p => answer p
  | .junction op none => op.combine []
  | .junction op (some fs) => op.combine (evalAll answer fs)
  | .not f => !eval answer f
  | .constant b => b

def evalAll (answer : Predicate → Bool) : List Filter → List Bool
  | [] => []
  | f :: fs => eval answer f :: evalAll answer fs

end

def evalOptional (answer : Predicate → Bool) : Option Filter → Bool
  | none => true
  | some f => f.eval answer

section Values

variable (answer : Predicate → Bool) (op : Junction)

theorem evalAll_eq_map (fs : List Filter) : evalAll answer fs = fs.map (eval answer) := by
  induction fs with
  | nil => rfl
  | cons f fs ih => rw [evalAll, ih, List.map_cons]

theorem eval_junctionOf (fs : List Filter) :
    (junctionOf op fs).eval answer = op.combine (fs.map (eval answer)) := by
  rw [junctionOf, eval, evalAll_eq_map]

theorem combine_operands {fs : List Filter} {operands : Filter → List Filter}
    (h : ∀ f ∈ fs, op.combine ((operands f).map (eval answer)) = f.eval answer) :
    op.combine ((fs.flatMap operands).map (eval answer)) = op.combine (fs.map (eval answer)) := by
  rw [List.map_flatMap, op.combine_flatMap, List.map_congr_left h]

theorem flattenAll_eq_flatMap (fs : List Filter) : flattenAll op fs = fs.flatMap (flatten op) := by
  induction fs with
  | nil => rfl
  | cons f fs ih => rw [flattenAll, ih, List.flatMap_cons]

theorem combine_flatten (f : Filter) :
    op.combine ((flatten op f).map (eval answer)) = f.eval answer := by
  induction f using Filter.induction with
  | test p | constant b | not f _ =>
      rw [flatten, List.map_singleton, op.combine_singleton]
  | absent op' =>
      by_cases hop : op' = op
      · subst hop
        rw [flatten, if_pos rfl, List.map_nil, eval]
      · rw [flatten, if_neg hop, List.map_singleton, op.combine_singleton]
  | junction op' fs ih =>
      by_cases hop : op' = op
      · subst hop
        rw [flatten, if_pos rfl, flattenAll_eq_flatMap, combine_operands answer op' ih, eval,
          evalAll_eq_map]
      · rw [flatten, if_neg hop, List.map_singleton, op.combine_singleton]

/-- The operands that a filter which may be absent gives to a junction. -/
def operandsOf (op : Junction) : Option Filter → List Filter
  | some f => flatten op f
  | none => []

theorem join_eq (filters : List (Option Filter)) :
    join op filters = rejoin op (filters.flatMap (operandsOf op)) := by
  rw [join]
  congr 2

theorem rejoin_eq_none {op : Junction} {fs : List Filter} : rejoin op fs = none ↔ fs = [] := by
  match fs with
  | [] => simp [rejoin]
  | [f] => simp [rejoin]
  | f :: g :: fs => simp [rejoin]

theorem eval_rejoin {op : Junction} {fs : List Filter} {g : Filter} (h : rejoin op fs = some g) :
    g.eval answer = op.combine (fs.map (eval answer)) := by
  match fs with
  | [] => simp [rejoin] at h
  | [f] =>
      obtain rfl : f = g := by simpa [rejoin] using h
      rw [List.map_singleton, op.combine_singleton]
  | f₁ :: f₂ :: fs =>
      obtain rfl : junctionOf op (f₁ :: f₂ :: fs) = g := by simpa [rejoin] using h
      exact eval_junctionOf answer op _

theorem evalOptional_rejoin_all (fs : List Filter) :
    evalOptional answer (rejoin .all fs) = Junction.all.combine (fs.map (eval answer)) := by
  cases h : rejoin .all fs with
  | none =>
      -- No filter matches every row, and so does a conjunction of nothing.
      rw [rejoin_eq_none.1 h]
      rfl
  | some g => exact eval_rejoin answer h

theorem evalOptional_allOf (filters : List (Option Filter)) :
    evalOptional answer (allOf filters) = filters.all (evalOptional answer) := by
  have hoperands (o : Option Filter) :
      Junction.all.combine ((operandsOf .all o).map (eval answer)) = evalOptional answer o := by
    cases o with
    | none => rfl
    | some f => exact combine_flatten answer .all f
  rw [allOf, join_eq, evalOptional_rejoin_all, List.map_flatMap, Junction.combine_flatMap]
  simp only [hoperands]
  rw [Junction.combine, List.all_map, Function.id_comp]

/-- A disjunction of nothing, or of nothing but such disjunctions. -/
inductive Hollow : Filter → Prop
  | absent : Hollow (.junction .any none)
  | junction {fs : List Filter} (each : ∀ f ∈ fs, Hollow f) : Hollow (.junction .any (some fs))

theorem flatten_any_eq_nil (f : Filter) : flatten .any f = [] ↔ f.Hollow := by
  induction f using Filter.induction with
  | test p | constant b | not f _ =>
      rw [flatten]
      refine iff_of_false (List.cons_ne_nil _ _) fun h => ?_
      cases h
  | absent op =>
      cases op with
      | all =>
          refine iff_of_false (by simp [flatten]) fun h => ?_
          cases h
      | any => exact iff_of_true rfl .absent
  | junction op fs ih =>
      cases op with
      | all =>
          refine iff_of_false (by simp [flatten]) fun h => ?_
          cases h
      | any =>
          rw [flatten, if_pos rfl, flattenAll_eq_flatMap, List.flatMap_eq_nil_iff,
            forall₂_congr ih]
          constructor
          · exact .junction
          · intro h
            cases h with
            | junction each => exact each

/-- A disjunction matches what one of its filters matches. Of hollow filters alone it is no filter,
which matches everything. -/
theorem evalOptional_anyOf (fs : List Filter) :
    evalOptional answer (anyOf (fs.map some)) = true ↔
      (∃ f ∈ fs, f.eval answer = true) ∨ ∀ f ∈ fs, f.Hollow := by
  have hnil : fs.flatMap (flatten .any) = [] ↔ ∀ f ∈ fs, f.Hollow := by
    rw [List.flatMap_eq_nil_iff]
    exact forall₂_congr fun f _ => flatten_any_eq_nil f
  have hvalue : Junction.any.combine ((fs.flatMap (flatten .any)).map (eval answer)) = true ↔
      ∃ f ∈ fs, f.eval answer = true := by
    rw [combine_operands answer .any fun f _ => combine_flatten answer .any f]
    simp [Junction.combine]
  rw [anyOf, join_eq, List.flatMap_map]
  change evalOptional answer (rejoin .any (fs.flatMap (flatten .any))) = true ↔ _
  rw [← hnil, ← hvalue]
  cases hj : rejoin .any (fs.flatMap (flatten .any)) with
  | none =>
      -- Nothing is left of the filters, and the join restricts nothing.
      exact iff_of_true rfl (.inr (rejoin_eq_none.1 hj))
  | some g =>
      have hsome : fs.flatMap (flatten .any) ≠ [] := fun h => by
        rw [rejoin_eq_none.2 h] at hj
        cases hj
      rw [evalOptional, eval_rejoin answer hj, or_iff_left hsome]

theorem evalOptional_allOf_anyOf (own : Option Filter) (fs : List Filter) :
    evalOptional answer (allOf [own, anyOf (fs.map some)]) = true ↔
      evalOptional answer own = true ∧
        ((∃ f ∈ fs, f.eval answer = true) ∨ ∀ f ∈ fs, f.Hollow) := by
  rw [evalOptional_allOf, ← evalOptional_anyOf]
  simp

theorem eval_complement (f : Filter) : f.complement.eval answer = !f.eval answer := by
  match f with
  | .constant b => simp only [complement, eval]
  | .test p | .junction op fs | .not f => simp only [complement, eval]

theorem combine_contribution (f : Filter) :
    op.combine ((contribution op f).map (eval answer)) = f.eval answer := by
  match f with
  | .test p | .not f => exact op.combine_singleton _
  | .constant b =>
      by_cases hb : b = op.unit
      · rw [contribution, if_pos hb, List.map_nil, op.combine_nil, eval, hb]
      · rw [contribution, if_neg hb, List.map_singleton, op.combine_singleton]
  | .junction op' fs =>
      by_cases hop : op' = op
      · subst hop
        rw [contribution, if_pos rfl]
        cases fs with
        | none => rw [eval, Option.getD_none, List.map_nil]
        | some fs => rw [eval, evalAll_eq_map, Option.getD_some]
      · rw [contribution, if_neg hop, List.map_singleton, op.combine_singleton]

theorem eval_collapse (fs : List Filter) :
    (collapse op fs).eval answer = op.combine (fs.map (eval answer)) := by
  match fs with
  | [] => rw [collapse, eval, List.map_nil, op.combine_nil]
  | [f] => rw [collapse, List.map_singleton, op.combine_singleton]
  | f :: g :: fs => exact eval_junctionOf answer op _

theorem normalizeAll_eq_flatMap (fs : List Filter) :
    normalizeAll op fs = fs.flatMap fun f => contribution op f.normalize := by
  induction fs with
  | nil => rfl
  | cons f fs ih => rw [normalizeAll, ih, List.flatMap_cons]

theorem eval_normalize (f : Filter) : f.normalize.eval answer = f.eval answer := by
  induction f using Filter.induction with
  | test p | constant b => rfl
  | not f ih => rw [normalize, eval_complement, ih, eval]
  | absent op => rw [normalize, eval, eval, op.combine_nil]
  | junction op fs ih =>
      have hoperands : ∀ f ∈ fs,
          op.combine ((contribution op f.normalize).map (eval answer)) = f.eval answer :=
        fun f hf => (combine_contribution answer op f.normalize).trans (ih f hf)
      rw [normalize, eval_collapse, normalizeAll_eq_flatMap, combine_operands answer op hoperands,
        eval, evalAll_eq_map]

end Values

end Filter

end TenantQuery
