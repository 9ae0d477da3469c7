import TenantQuery.Proofs.Json.Twin
import TenantQuery.Proofs.Query.Codec

namespace TenantQuery

open Json

theorem Interval.twin (i : Interval) : Twin i.encode i.settled.encode := by
  rw [encode, encode, wire_settled]
  exact .refl _

theorem Predicate.twin (p : Predicate) : Twin p.encode p.settled.encode := by
  rw [encode, encode, typeName_settled]
  refine .tagged ?_
  cases p with
  | selector p => exact .text (.text .nil)
  | columnComparison p => exact .same (twin_texts _) .nil
  | regex p => exact .text (.text .nil)
  | search p => exact .text (.same (.object (.text (.text (.refl _)))) .nil)
  | membership p => exact .text (.same (twin_texts _) .nil)
  | like p => exact .text (.text (twins_ifSome_text _))
  | bound p =>
      exact .text (.append (.append (.append (.append (twins_ifSome_text _) (twins_ifSome_text _))
        (.refl _)) (.refl _)) (twins_ifSome_text _))
  | during p => exact .text (.same (twin_listOrNull fun _ _ i _ => i.twin) .nil)

theorem Filter.twin (f : Filter) : Twin f.encode f.settled.encode := by
  induction f using Filter.induction with
  | test p => exact p.twin
  | constant b => exact .refl _
  | not f ih => exact .tagged (.same ih .nil)
  | absent op => exact .refl _
  | junction op fs ih =>
      rw [settled, encode, encode, encodeAll_eq, encodeAll_eq, settledAll_eq]
      exact .tagged (.same (twin_items ih) .nil)

namespace Aggregator

theorem twins_column (name fieldName : String) :
    Twins (columnMembers name fieldName) (columnMembers (Text.normal name) (Text.normal fieldName)) :=
  .text (.text .nil)

theorem twins_bins (bins : Bins) : Twins (binMembers bins) (binMembers bins.settled) :=
  .append (twins_ifAny fun _ _ x _ => .double x) (.refl _)

theorem twin (a : Aggregator) : Twin a.encode a.settled.encode := by
  induction a with
  | count name => exact .tagged (.text .nil)
  | column kind a => exact .tagged (twins_column _ _)
  | thetaSketch a =>
      exact .tagged (.append (.append (.append (twins_column _ _) (.refl _)) (.refl _)) (.refl _))
  | hyperUnique a => exact .tagged (.append (.append (twins_column _ _) (.refl _)) (.refl _))
  | cardinality a =>
      exact .tagged (.append (.append (.text (.same (twin_texts _) .nil)) (.refl _)) (.refl _))
  | quantilesSketch a =>
      exact .tagged (.append (.append (.append (twins_column _ _) (.refl _)) (.refl _)) (.refl _))
  | filtered filter inner name ih =>
      exact .tagged (.append (.same filter.twin (.same ih .nil)) (twins_ifSome_text _))
  | userCount name | eventCount name => exact .tagged (twins_ifSome_text _)
  | histogram a => exact .tagged (.append (twins_ifSome_text _) (twins_bins _))

end Aggregator

theorem PostAggregator.twin (p : PostAggregator) : Twin p.encode p.settled.encode := by
  have hoperands {operands : Option (List PostAggregator)}
      (h : ∀ ps ∈ operands, ∀ p ∈ ps, Twin p.encode p.settled.encode) :
      Twin (encodeOperands operands) (encodeOperands (settledOperands operands)) := by
    rw [encodeOperands_eq, encodeOperands_eq, settledOperands_eq]
    exact twin_listOrNull h
  induction p using PostAggregator.induction with
  | arithmetic name fn operands ordering ih =>
      exact .tagged (.append (.text (.same (.refl _) (.same (hoperands ih) .nil)))
        (twins_ifSome_text _))
  | fieldAccess name fieldName | finalizingFieldAccess name fieldName =>
      exact .tagged (.append (twins_ifSome_text _) (.text .nil))
  | constant name value => exact .tagged (.text (.same (.double _) .nil))
  | extremum kind name operands ih => exact .tagged (.text (.same (hoperands ih) .nil))
  | expression name source ordering => exact .tagged (.text (.text (twins_ifSome_text _)))
  | hyperUniqueCardinality name fieldName => exact .tagged (Aggregator.twins_column _ _)
  | sketchEstimate name operand ih => exact .tagged (.text (.same ih .nil))
  | sketchSetOp name operation size operands ih =>
      exact .tagged (.append (.append (.append (twins_ifSome_text _) (.refl _)) (.refl _))
        (.same (hoperands ih) .nil))
  | sketchHistogram name operand bins ih =>
      exact .tagged (.append (.text (.same ih .nil)) (Aggregator.twins_bins _))
  | zScore name size1 success1 size2 success2 ih1 ih2 ih3 ih4 =>
      exact .tagged (.text (.same ih1 (.same ih2 (.same ih3 (.same ih4 .nil)))))
  | pValue name score ih => exact .tagged (.text (.same ih .nil))

theorem Metric.twin (m : Metric) : Twin m.encode m.settled.encode := by
  induction m with
  | numeric metric => exact .tagged (.text .nil)
  | dimension ordering stop =>
      exact .tagged (.append (twins_ifSome_text _) (twins_ifSome_text _))
  | inverted metric ih => exact .tagged (.same ih .nil)

theorem Context.twin (c : Context) : Twin c.encode c.settled.encode := by
  rw [encode_eq, encode_eq]
  exact .object (.append (twins_ifSome_text _) (.refl _))

theorem NamedFilter.twin (n : NamedFilter) : Twin n.encode n.settled.encode :=
  .object (.append (twins_ifSome fun f _ => f.twin) (.text .nil))

namespace Query

/-- Dimensions that are written as what is kept of them is. -/
structure Steady (q : Query) : Prop where
  dimension : ∀ d ∈ q.dimension, Twin d.encode d.settled.encode
  dimensions : ∀ ds ∈ q.dimensions, ∀ d ∈ ds, Twin d.encode d.settled.encode

theorem Steady.twin {q : Query} (h : q.Steady) : Twin q.encode q.settled.encode := by
  have hpresent {α : Type} (name : String) (encode : α → Json) (v : Option (List α)) :
      Twins (ifAny name encode v) (ifAny name encode (present v)) := by
    match v with
    | none | some [] | some (_ :: _) => exact .refl _
  simp only [encode, List.append_assoc]
  refine .object (.same (.refl _) (.append (twins_ifText _) (.append (.refl _) (.append (.refl _)
    (.append (.refl _) (.append (.refl _) ?_))))))
  refine .append (twins_ifSome fun f _ => f.twin) (.append (twins_ifAny fun _ _ i _ => i.twin)
    (.append (hpresent _ _ _) (.append (.refl _) ?_)))
  refine .append (twins_ifAny fun _ _ a _ => a.twin) (.append (twins_ifAny fun _ _ p _ => p.twin)
    (.append (.refl _) (.append (twins_ifSome fun c _ => c.twin) (.append (.refl _)
    (.append (twins_ifSome fun m _ => m.twin) ?_)))))
  refine .append (twins_ifSome h.dimension) (.append (twins_ifAny h.dimensions)
    (.append (twins_ifAny fun _ _ f _ => f.twin) (.append (twins_ifAny fun _ _ s _ => .string s) ?_)))
  exact .append (twins_ifSome fun n _ => n.twin) (.append (twins_ifSome fun n _ => n.twin)
    (twins_ifSome fun n _ => n.twin))

/-- Queries of which the written form keeps the same. -/
structure Akin (q q' : Query) : Prop where
  settled : q.settled = q'.settled
  steady : q.Steady
  steady' : q'.Steady

theorem Akin.twin {q q' : Query} (h : q.Akin q') : Twin q.encode q'.encode :=
  (h.settled ▸ h.steady.twin).trans h.steady'.twin.symm

/-- Akin queries agree in whatever can be told from what is kept of them. -/
theorem Akin.agree {q q' : Query} (h : q.Akin q') {α : Type} (f : Query → α)
    (hf : ∀ q, f q.settled = f q) : f q = f q' := by
  rw [← hf q, h.settled, hf]

theorem Akin.update {q q' : Query} (h : q.Akin q') (f : Query → Query)
    (hsettled : ∀ q, (f q).settled = f q.settled) (hdimension : ∀ q, (f q).dimension = q.dimension)
    (hdimensions : ∀ q, (f q).dimensions = q.dimensions) : (f q).Akin (f q') where
  settled := by rw [hsettled, hsettled, h.settled]
  steady := ⟨hdimension q ▸ h.steady.dimension, hdimensions q ▸ h.steady.dimensions⟩
  steady' := ⟨hdimension q' ▸ h.steady'.dimension, hdimensions q' ▸ h.steady'.dimensions⟩

end Query

end TenantQuery
