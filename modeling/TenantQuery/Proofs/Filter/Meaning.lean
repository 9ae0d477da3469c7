import TenantQuery.Proofs.Filter.Evaluation

namespace TenantQuery

/-- One stored event, by what filters can ask of it. A selector compares the value of a dimension;
every other test is left open. -/
structure Event where
  value : String → Option String
  passes : Predicate → Bool

def Event.Satisfies (e : Event) : Predicate → Prop
  | .selector p => e.value p.dimension = some p.value
  | p => e.passes p = true

/-- The answers of an event to the tests. -/
def Event.answer (e : Event) : Predicate → Bool
  | .selector p => decide (e.value p.dimension = some p.value)
  | p => e.passes p

theorem Event.satisfies_iff (e : Event) (p : Predicate) : e.Satisfies p ↔ e.answer p = true := by
  cases p with
  | selector p => simp [Satisfies, answer]
  | columnComparison _ | regex _ | search _ | membership _ | like _ | bound _ | during _ => rfl

def Junction.Joins : Junction → Prop → Prop → Prop
  | .all, p, q => p ∧ q
  | .any, p, q => p ∨ q

namespace Filter

mutual

def Matches (e : Event) : Filter → Prop
  | .test p => e.Satisfies p
  | .junction op none => op.unit = true
  | .junction op (some fs) => MatchesJoined e op fs
  | .not f => ¬ Matches e f
  | .constant b => b = true

def MatchesJoined (e : Event) (op : Junction) : List Filter → Prop
  | [] => op.unit = true
  | f :: fs => op.Joins (Matches e f) (MatchesJoined e op fs)

end

def MatchesOptional (e : Event) : Option Filter → Prop
  | none => True
  | some f => f.Matches e

theorem matchesJoined_all (e : Event) (fs : List Filter) :
    MatchesJoined e .all fs ↔ ∀ f ∈ fs, f.Matches e := by
  induction fs with
  | nil => simp [MatchesJoined, Junction.unit]
  | cons f fs ih => simp [MatchesJoined, Junction.Joins, ih]

theorem matchesJoined_any (e : Event) (fs : List Filter) :
    MatchesJoined e .any fs ↔ ∃ f ∈ fs, f.Matches e := by
  induction fs with
  | nil => simp [MatchesJoined, Junction.unit]
  | cons f fs ih => simp [MatchesJoined, Junction.Joins, ih]

theorem matches_selector (e : Event) (dimension value : String) :
    (selector dimension value).Matches e ↔ e.value dimension = some value := by
  simp only [selector, Matches, Event.Satisfies]

theorem matchesJoined_of_each {e : Event} {fs : List Filter} (op : Junction)
    (h : ∀ f ∈ fs, (f.Matches e ↔ f.eval e.answer = true)) :
    MatchesJoined e op fs ↔ op.combine (fs.map (eval e.answer)) = true := by
  cases op with
  | all =>
      rw [matchesJoined_all, forall₂_congr h]
      simp [Junction.combine]
  | any =>
      rw [matchesJoined_any]
      simp only [Junction.combine, List.any_map, List.any_eq_true, Function.id_comp]
      exact exists_congr fun f => and_congr_right (h f)

theorem matches_iff_eval (e : Event) (f : Filter) : f.Matches e ↔ f.eval e.answer = true := by
  induction f using Filter.induction with
  | test p =>
      rw [Matches, eval]
      exact e.satisfies_iff p
  | constant b => rw [Matches, eval]
  | not f ih => rw [Matches, eval, ih, Bool.not_eq_true, Bool.not_eq_true']
  | absent op => rw [Matches, eval, op.combine_nil]
  | junction op fs ih =>
      rw [Matches, eval, evalAll_eq_map]
      exact matchesJoined_of_each op ih

theorem matchesOptional_iff_eval (e : Event) (o : Option Filter) :
    MatchesOptional e o ↔ evalOptional e.answer o = true := by
  cases o with
  | none => exact iff_of_true trivial rfl
  | some f => exact matches_iff_eval e f

theorem matches_rejoin {e : Event} {op : Junction} {fs : List Filter} {g : Filter}
    (h : rejoin op fs = some g) : g.Matches e ↔ MatchesJoined e op fs := by
  rw [matches_iff_eval, eval_rejoin e.answer h]
  exact (matchesJoined_of_each op fun f _ => matches_iff_eval e f).symm

theorem matchesOptional_allOf (e : Event) (filters : List (Option Filter)) :
    MatchesOptional e (allOf filters) ↔ ∀ o ∈ filters, MatchesOptional e o := by
  simp only [matchesOptional_iff_eval, evalOptional_allOf, List.all_eq_true]

/-- Narrowing a filter to the rows that some filters match keeps every row that one of them
matches. -/
theorem matchesOptional_allOf_anyOf {e : Event} (own : Option Filter) {fs : List Filter} {f : Filter}
    (hf : f ∈ fs) (h : f.Matches e) :
    MatchesOptional e (allOf [own, anyOf (fs.map some)]) ↔ MatchesOptional e own := by
  rw [matchesOptional_iff_eval, evalOptional_allOf_anyOf, matchesOptional_iff_eval]
  exact and_iff_left (.inl ⟨f, hf, (matches_iff_eval e f).1 h⟩)

theorem matchesOptional_normalize (e : Event) (o : Option Filter) :
    MatchesOptional e (o.map normalize) ↔ MatchesOptional e o := by
  cases o with
  | none => exact Iff.rfl
  | some f => rw [Option.map_some, MatchesOptional, MatchesOptional, matches_iff_eval,
      eval_normalize, matches_iff_eval]

end Filter

end TenantQuery
