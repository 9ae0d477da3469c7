import TenantQuery.Proofs.Occurrence
import TenantQuery.Proofs.Validation

namespace TenantQuery

namespace Filter

def Occupied (f : Filter) : Prop :=
  ∀ op operands, Occurs (.junction op operands) f → operands.getD [] ≠ []

theorem warnings_eq_nil_iff (f : Filter) : f.warnings = [] ↔ f.Occupied := by
  induction f using Filter.induction with
  | test p | constant b =>
      refine iff_of_true rfl fun op operands h => ?_
      cases h
  | not f ih =>
      rw [warnings, ih]
      constructor
      · rintro hf op operands (_ | _ | hinside)
        exact hf op operands hinside
      · exact fun h op operands hinside => h op operands (.negated hinside)
  | absent op => exact iff_of_false (List.cons_ne_nil _ _) fun h => h op none (.self _) rfl
  | junction op fs ih =>
      cases fs with
      | nil => exact iff_of_false (List.cons_ne_nil _ _) fun h => h op (some []) (.self _) rfl
      | cons f fs =>
          rw [warnings, warningsOfAll_eq_flatMap, ← List.flatMap_cons, List.flatMap_eq_nil_iff]
          constructor
          · intro h op' operands hoccurs
            cases hoccurs with
            | self => exact List.cons_ne_nil f fs
            | operand mem inside => exact (ih _ mem).1 (h _ mem) op' operands inside
          · intro h g hg
            exact (ih g hg).2 fun op' operands inside => h op' operands (.operand hg inside)

end Filter

namespace Aggregator

def filter? : Aggregator → Option Filter
  | .filtered filter _ _ => some filter
  | _ => none

theorem warnings_eq_nil_iff (a : Aggregator) :
    a.warnings = [] ↔ (∀ b, Occurs b a → b.isConvenience = false) ∧
      ∀ b, Occurs b a → ∀ f, b.filter? = some f → f.Occupied := by
  induction a with
  | filtered filter inner name ih =>
      have hself : (filtered filter inner name).isConvenience = false := rfl
      have hfilter : (∀ f, (filtered filter inner name).filter? = some f → f.Occupied) ↔
          filter.Occupied := by simp [filter?]
      rw [warnings, List.append_eq_nil_iff, Filter.warnings_eq_nil_iff, ih, forall_occurs_filtered,
        forall_occurs_filtered, and_iff_right hself, hfilter]
      tauto
  | _ => simp [forall_occurs_of_ne_filtered, warnings, isConvenience, filter?]

end Aggregator

namespace PostAggregator

def isArithmetic : PostAggregator → Bool
  | .arithmetic _ _ _ _ => true
  | _ => false

def reference? : PostAggregator → Option String
  | .fieldAccess _ fieldName => some fieldName
  | .finalizingFieldAccess _ fieldName => some fieldName
  | .hyperUniqueCardinality _ fieldName => some fieldName
  | _ => none

theorem accessWarnings_eq_nil {names : List String} {name : String} :
    accessWarnings names name = [] ↔ name ∈ names := by
  by_cases h : name ∈ names
  · simp [accessWarnings, h]
  · simp [accessWarnings, h]

theorem arityWarnings_eq_nil {name : String} {count : Nat} :
    arityWarnings name count = [] ↔ 2 ≤ count := by
  rw [arityWarnings]
  split
  · exact iff_of_false (List.cons_ne_nil _ _) (by omega)
  · exact iff_of_true rfl (by omega)

theorem warnings_eq_nil {names : List String} {p : PostAggregator} :
    p.warnings names = [] ↔ (∀ name, p.reference? = some name → name ∈ names) ∧
      (p.isArithmetic = true → 2 ≤ p.operands.length) ∧
      ∀ q ∈ p.operands, q.warnings names = [] := by
  match p with
  | .fieldAccess _ _ | .finalizingFieldAccess _ _ | .hyperUniqueCardinality _ _ =>
      simp [warnings, reference?, isArithmetic, operands, accessWarnings_eq_nil]
  | .arithmetic _ _ none _ | .arithmetic _ _ (some _) _ =>
      simp [warnings, reference?, isArithmetic, operands, arityWarnings_eq_nil,
        warningsOfAll_eq_flatMap]
  | .extremum _ _ none | .extremum _ _ (some _) | .sketchSetOp _ _ _ none
  | .sketchSetOp _ _ _ (some _) =>
      simp [warnings, reference?, isArithmetic, operands, warningsOfAll_eq_flatMap]
  | .sketchEstimate _ _ | .sketchHistogram _ _ _ | .zScore _ _ _ _ _ | .pValue _ _
  | .constant _ _ | .expression _ _ _ => simp [warnings, reference?, isArithmetic, operands]

theorem warnings_eq_nil_iff (names : List String) (p : PostAggregator) :
    p.warnings names = [] ↔
      (∀ q, Occurs q p → ∀ name, q.reference? = some name → name ∈ names) ∧
      ∀ q, Occurs q p → q.isArithmetic = true → 2 ≤ q.operands.length := by
  induction p using operands_induction with
  | step p ih =>
      rw [warnings_eq_nil, forall_occurs, forall_occurs, forall₂_congr ih, forall₂_and]
      tauto

end PostAggregator

namespace Validation

namespace State

theorem warnings_define_eq_nil {s : State} {name : String} :
    (s.define name).warnings = [] ↔ s.warnings = [] ∧ (name ≠ "" → name ∉ s.names) := by
  rw [define]
  by_cases hempty : name = ""
  · simp [hempty]
  · by_cases hmem : name ∈ s.names
    · simp [hempty, hmem]
    · simp [hempty, hmem]

section Visits

variable {α : Type} (report : List String → α → List Warning) (nameOf : α → String)

theorem reports_cons {x : α} {xs : List α} {s : State} :
    (∀ k y, (x :: xs)[k]? = some y →
        report (((x :: xs).take k).foldl (visit report nameOf) s).names y = []) ↔
      report s.names x = [] ∧ ∀ k y, xs[k]? = some y →
        report ((xs.take k).foldl (visit report nameOf) (s.visit report nameOf x)).names y = [] := by
  constructor
  · intro h
    exact ⟨h 0 x rfl, fun k y hy => h (k + 1) y hy⟩
  · rintro ⟨hfirst, hrest⟩ k y hy
    cases k with
    | zero =>
        cases hy
        exact hfirst
    | succ k => exact hrest k y hy

theorem newNames_cons {x : α} {xs : List α} {s : State} :
    ((((x :: xs).map nameOf).filter (· ≠ "")).Nodup ∧
        ∀ y ∈ x :: xs, nameOf y ≠ "" → nameOf y ∉ s.names) ↔
      (nameOf x ≠ "" → nameOf x ∉ s.names) ∧ ((xs.map nameOf).filter (· ≠ "")).Nodup ∧
        ∀ y ∈ xs, nameOf y ≠ "" → nameOf y ∉ (s.visit report nameOf x).names := by
  simp only [mem_names_visit, List.forall_mem_cons, List.map_cons]
  by_cases hempty : nameOf x = ""
  · simp only [List.filter_cons, hempty]
    grind
  · have hmem : nameOf x ∈ (xs.map nameOf).filter (· ≠ "") ↔ ∃ y ∈ xs, nameOf y = nameOf x := by
      simp [hempty]
    rw [List.filter_cons_of_pos (by simpa using hempty), List.nodup_cons, hmem]
    grind

/-- A run is silent if every item is, given the names before it, and no name comes twice. -/
theorem warnings_visits_eq_nil {xs : List α} {s : State} :
    (xs.foldl (visit report nameOf) s).warnings = [] ↔
      s.warnings = [] ∧
      (∀ k x, xs[k]? = some x →
        report ((xs.take k).foldl (visit report nameOf) s).names x = []) ∧
      ((xs.map nameOf).filter (· ≠ "")).Nodup ∧
      ∀ x ∈ xs, nameOf x ≠ "" → nameOf x ∉ s.names := by
  induction xs generalizing s with
  | nil => simp
  | cons x xs ih =>
      have hvisit : (s.visit report nameOf x).warnings = [] ↔
          (s.warnings = [] ∧ report s.names x = []) ∧ (nameOf x ≠ "" → nameOf x ∉ s.names) := by
        rw [visit, warnings_define_eq_nil, warnings_warn, List.append_eq_nil_iff, names_warn]
      rw [List.foldl_cons, ih, hvisit, reports_cons, newNames_cons report]
      tauto

end Visits

end State

/-- Output names that are not empty come once, references lead to what is defined before them,
everything is lowered, and neither arithmetic nor junctions lack operands. -/
structure Faultless (filter : Option Filter) (aggregators : List Aggregator)
    (posts : List PostAggregator) : Prop where
  names : ((aggregators.map Aggregator.outputName ++
    posts.map PostAggregator.outputName).filter (· ≠ "")).Nodup
  references : ∀ (k : Nat) p, posts[k]? = some p → ∀ q, PostAggregator.Occurs q p →
    ∀ name, q.reference? = some name → name ≠ "" ∧
      ((∃ a ∈ aggregators, a.outputName = name) ∨ ∃ p' ∈ posts.take k, p'.outputName = name)
  lowered : ∀ a ∈ aggregators, ∀ b, Aggregator.Occurs b a → b.isConvenience = false
  arities : ∀ p ∈ posts, ∀ q, PostAggregator.Occurs q p → q.isArithmetic = true →
    2 ≤ q.operands.length
  junctions : ∀ f, (filter = some f ∨
    ∃ a ∈ aggregators, ∃ b, Aggregator.Occurs b a ∧ b.filter? = some f) → f.Occupied

section

variable {aggregators : List Aggregator} {posts : List PostAggregator} {s : State}

theorem warnings_addAggregators_eq_nil :
    (aggregators.foldl State.addAggregator s).warnings = [] ↔
      s.warnings = [] ∧ (∀ a ∈ aggregators, a.warnings = []) ∧
      ((aggregators.map Aggregator.outputName).filter (· ≠ "")).Nodup ∧
      ∀ a ∈ aggregators, a.outputName ≠ "" → a.outputName ∉ s.names := by
  have hmem : (∀ (k : Nat) a, aggregators[k]? = some a → a.warnings = []) ↔
      ∀ a ∈ aggregators, a.warnings = [] := by
    simp only [List.mem_iff_getElem?, forall_exists_index]
    exact forall_comm
  rw [← hmem]
  exact State.warnings_visits_eq_nil (fun _ => Aggregator.warnings) Aggregator.outputName

theorem warnings_addPostAggregators_eq_nil :
    (posts.foldl State.addPostAggregator s).warnings = [] ↔
      s.warnings = [] ∧
      (∀ (k : Nat) p, posts[k]? = some p →
        p.warnings ((posts.take k).foldl State.addPostAggregator s).names = []) ∧
      ((posts.map PostAggregator.outputName).filter (· ≠ "")).Nodup ∧
      ∀ p ∈ posts, p.outputName ≠ "" → p.outputName ∉ s.names :=
  State.warnings_visits_eq_nil PostAggregator.warnings PostAggregator.outputName

theorem nodup_names_iff :
    ((aggregators.map Aggregator.outputName ++
        posts.map PostAggregator.outputName).filter (· ≠ "")).Nodup ↔
      ((aggregators.map Aggregator.outputName).filter (· ≠ "")).Nodup ∧
      ((posts.map PostAggregator.outputName).filter (· ≠ "")).Nodup ∧
      ∀ p ∈ posts, p.outputName ≠ "" → ∀ a ∈ aggregators, a.outputName ≠ p.outputName := by
  rw [List.filter_append, List.nodup_append]
  refine and_congr_right fun _ => and_congr_right fun _ => ?_
  simp only [List.mem_filter, List.mem_map, decide_eq_true_eq]
  grind

end

end Validation

open Validation

/-- Validation gives no warning exactly if there is nothing to warn about. -/
theorem validate_eq_nil_iff (filter : Option Filter) (aggregators : List Aggregator)
    (posts : List PostAggregator) :
    validate filter aggregators posts = [] ↔ Faultless filter aggregators posts := by
  have hfilter : (filter.map Filter.warnings).getD [] = [] ↔ ∀ f, filter = some f → f.Occupied := by
    cases filter with
    | none => simp
    | some f => simp [Filter.warnings_eq_nil_iff]
  rw [validate, warnings_addPostAggregators_eq_nil, warnings_addAggregators_eq_nil, hfilter]
  simp only [Aggregator.warnings_eq_nil_iff, PostAggregator.warnings_eq_nil_iff,
    State.mem_names_addPostAggregators, State.mem_names_addAggregators, List.not_mem_nil, false_or]
  constructor
  · rintro ⟨⟨hoccupied, haggregators, hnames, -⟩, hposts, hnames', hfresh⟩
    refine ⟨nodup_names_iff.2 ⟨hnames, hnames', by grind⟩, ?_, fun a ha => (haggregators a ha).1,
      ?_, ?_⟩
    · intro k p hp q hq name hname
      exact and_or_left.2 ((hposts k p hp).1 q hq name hname)
    · intro p hp
      obtain ⟨k, hk⟩ := List.mem_iff_getElem?.1 hp
      exact (hposts k p hk).2
    · rintro f (hf | ⟨a, ha, b, hb, hf⟩)
      · exact hoccupied f hf
      · exact (haggregators a ha).2 b hb f hf
  · intro h
    obtain ⟨hnames, hnames', hfresh⟩ := nodup_names_iff.1 h.names
    refine ⟨⟨fun f hf => h.junctions f (.inl hf), fun a ha => ⟨h.lowered a ha, ?_⟩, hnames, by simp⟩,
      fun k p hp => ⟨?_, h.arities p (List.mem_of_getElem? hp)⟩, hnames', by grind⟩
    · exact fun b hb f hf => h.junctions f (.inr ⟨a, ha, b, hb, hf⟩)
    · exact fun q hq name hname => and_or_left.1 (h.references k p hp q hq name hname)

end TenantQuery
