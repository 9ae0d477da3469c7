import TenantQuery.Proofs.PostAggregator.Codec

namespace TenantQuery

namespace Aggregator

inductive Occurs : Aggregator → Aggregator → Prop
  | self (a : Aggregator) : Occurs a a
  | filtered {a inner : Aggregator} {filter : Filter} {name : Option String}
      (inside : Occurs a inner) : Occurs a (.filtered filter inner name)

section

variable {P : Aggregator → Prop}

theorem forall_occurs_filtered {filter : Filter} {inner : Aggregator} {name : Option String} :
    (∀ b, Occurs b (.filtered filter inner name) → P b) ↔
      P (.filtered filter inner name) ∧ ∀ b, Occurs b inner → P b := by
  constructor
  · intro h
    exact ⟨h _ (.self _), fun b hb => h b (.filtered hb)⟩
  · rintro ⟨hself, hinside⟩ b hb
    cases hb with
    | self => exact hself
    | filtered inside => exact hinside b inside

theorem forall_occurs_of_ne_filtered {a : Aggregator}
    (h : ∀ filter inner name, a ≠ .filtered filter inner name) :
    (∀ b, Occurs b a → P b) ↔ P a := by
  constructor
  · intro hall
    exact hall a (.self a)
  · intro ha b hb
    cases hb with
    | self => exact ha
    | filtered inside => exact absurd rfl (h _ _ _)

end

end Aggregator

namespace PostAggregator

/-- The post-aggregators that stand directly in another. -/
def operands : PostAggregator → List PostAggregator
  | .arithmetic _ _ operands _ => operands.getD []
  | .extremum _ _ operands => operands.getD []
  | .sketchSetOp _ _ _ operands => operands.getD []
  | .sketchEstimate _ operand => [operand]
  | .sketchHistogram _ operand _ => [operand]
  | .zScore _ size1 success1 size2 success2 => [size1, success1, size2, success2]
  | .pValue _ score => [score]
  | .fieldAccess _ _ | .finalizingFieldAccess _ _ | .hyperUniqueCardinality _ _ => []
  | .constant _ _ | .expression _ _ _ => []

inductive Occurs : PostAggregator → PostAggregator → Prop
  | self (p : PostAggregator) : Occurs p p
  | operand {p q r : PostAggregator} (mem : q ∈ r.operands) (inside : Occurs p q) : Occurs p r

theorem forall_occurs {P : PostAggregator → Prop} {r : PostAggregator} :
    (∀ p, Occurs p r → P p) ↔ P r ∧ ∀ q ∈ r.operands, ∀ p, Occurs p q → P p := by
  constructor
  · intro h
    exact ⟨h r (.self r), fun q hq p hp => h p (.operand hq hp)⟩
  · rintro ⟨hself, hinside⟩ p hp
    cases hp with
    | self => exact hself
    | operand mem inside => exact hinside _ mem p inside

theorem operands_induction {P : PostAggregator → Prop}
    (step : ∀ p, (∀ q ∈ p.operands, P q) → P p) (p : PostAggregator) : P p := by
  have hoperands {list : Option (List PostAggregator)} (ih : ∀ ps ∈ list, ∀ p ∈ ps, P p) :
      ∀ q ∈ list.getD [], P q := by
    cases list with
    | none => simp
    | some ps => exact ih ps rfl
  induction p using PostAggregator.induction with
  | arithmetic name fn operands ordering ih => exact step _ (hoperands ih)
  | extremum kind name operands ih => exact step _ (hoperands ih)
  | sketchSetOp name operation size operands ih => exact step _ (hoperands ih)
  | sketchEstimate name operand ih => exact step _ (by simpa [operands] using ih)
  | sketchHistogram name operand bins ih => exact step _ (by simpa [operands] using ih)
  | zScore name size1 success1 size2 success2 ih1 ih2 ih3 ih4 =>
      exact step _ (by simp [operands, ih1, ih2, ih3, ih4])
  | pValue name score ih => exact step _ (by simpa [operands] using ih)
  | fieldAccess | finalizingFieldAccess | hyperUniqueCardinality | constant | expression =>
      exact step _ (by simp [operands])

end PostAggregator

end TenantQuery
