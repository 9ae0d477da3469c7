import TenantQuery.Proofs.Aggregator.Verbatim
import TenantQuery.Proofs.PostAggregator.Codec

namespace TenantQuery

open Json Outcome

namespace PostAggregator

mutual

/-- What the text of a post-aggregator retains. -/
def retained : PostAggregator → PostAggregator
  | .arithmetic name fn operands ordering =>
    .arithmetic name fn (retainedOperands operands) ordering
  | .extremum kind name operands => .extremum kind name (retainedOperands operands)
  | .sketchEstimate name operand => .sketchEstimate name (retained operand)
  | .sketchSetOp name operation size operands =>
    .sketchSetOp name operation size (retainedOperands operands)
  | .sketchHistogram name operand bins => .sketchHistogram name (retained operand) bins.retained
  | .zScore name size1 success1 size2 success2 =>
    .zScore name (retained size1) (retained success1) (retained size2) (retained success2)
  | .pValue name score => .pValue name (retained score)
  | .fieldAccess name fieldName => .fieldAccess name fieldName
  | .finalizingFieldAccess name fieldName => .finalizingFieldAccess name fieldName
  | .constant name value => .constant name value
  | .expression name source ordering => .expression name source ordering
  | .hyperUniqueCardinality name fieldName => .hyperUniqueCardinality name fieldName

def retainedOperands : Option (List PostAggregator) → Option (List PostAggregator)
  | none => none
  | some ps => some (retainedAll ps)

def retainedAll : List PostAggregator → List PostAggregator
  | [] => []
  | p :: ps => retained p :: retainedAll ps

end

theorem retainedOperands_eq (operands : Option (List PostAggregator)) :
    retainedOperands operands = operands.map (·.map retained) := by
  have hall (ps : List PostAggregator) : retainedAll ps = ps.map retained := by
    induction ps with
    | nil => rfl
    | cons p ps ih => rw [retainedAll, ih, List.map_cons]
  cases operands with
  | none => rfl
  | some ps => rw [retainedOperands, hall, Option.map_some]

theorem listOrNull_operands {operands : Option (List PostAggregator)}
    (h : ∀ ps ∈ operands, ∀ p ∈ ps, Restores encode readWithin p p.retained) :
    listOrNull encode (retainedOperands operands) = listOrNull encode operands := by
  rw [retainedOperands_eq, listOrNull_retained fun ps hps p hp => (h ps hps p hp).again]

theorem readNodes_retained {operands : Option (List PostAggregator)} {fuel : Nat}
    (h : ∀ ps ∈ operands, ∀ p ∈ ps, Restores encode readWithin p p.retained)
    (hdepth : (listOrNull encode operands).depth < fuel) :
    readNodes (readWithin fuel) (operands.map (·.map encode)) =
      .ok (retainedOperands operands) := by
  rw [retainedOperands_eq, readNodes_restored h hdepth]

theorem restores (p : PostAggregator) (hfits : p.Fits) :
    Restores encode readWithin p p.retained := by
  induction p using PostAggregator.induction with
  | arithmetic name fn operands ordering ih =>
      have hoperands := fun ps hps p hp => ih ps hps p hp (fitOperands_iff.1 hfits ps hps p hp)
      refine .of soundNode_arithmetic {} readWithin_succ (encode_arithmetic _ _ _ _) ?_
        (.of (decodes_text _) (.of (decodes_text _) (.rawItems
          (.last (.ifSame (fun s _ => decodes_text s) rfl .nil)))))
        fun fuel => ⟨_, rfl, fun hdepth j hj => ?_⟩
      · rw [retained, encode_arithmetic, encode_arithmetic, listOrNull_operands hoperands]
      · have hread := readNodes_retained hoperands
          (hdepth ("fields", listOrNull encode operands) (by simp))
        simp only [readArithmetic, hj, ok_bind, ofSymbol?_symbol]
        rw [hread]
        rfl
  | fieldAccess name fieldName =>
      exact .of soundNode_access (none, "") readWithin_succ rfl rfl
        (.ifSame (fun s _ => decodes_text s) rfl (.of (decodes_text _) .nil))
        fun fuel => ⟨_, rfl, fun _ j hj => by rw [hj]; rfl⟩
  | finalizingFieldAccess name fieldName =>
      exact .of soundNode_access (none, "") readWithin_succ rfl rfl
        (.ifSame (fun s _ => decodes_text s) rfl (.of (decodes_text _) .nil))
        fun fuel => ⟨_, rfl, fun _ j hj => by rw [hj]; rfl⟩
  | constant name value =>
      exact .of soundNode_constant ("", Double.zero) readWithin_succ rfl rfl
        (.of (decodes_text _) (.of (decodes_double hfits) .nil))
        fun fuel => ⟨_, rfl, fun _ j hj => by rw [hj]; rfl⟩
  | extremum kind name operands ih =>
      have hoperands := fun ps hps p hp => ih ps hps p hp (fitOperands_iff.1 hfits ps hps p hp)
      refine .of soundNode_extremum {} readWithin_succ (encode_extremum _ _ _) ?_
        (.of (decodes_text _) (.rawItems .nil))
        fun fuel => ⟨_, lookup_extremumKind _ kind, fun hdepth j hj => ?_⟩
      · rw [retained, encode_extremum, encode_extremum, listOrNull_operands hoperands]
      · have hread := readNodes_retained hoperands
          (hdepth ("fields", listOrNull encode operands) (by simp))
        simp only [readExtremum, hj, ok_bind]
        rw [hread]
        rfl
  | expression name source ordering =>
      exact .of soundNode_expression {} readWithin_succ rfl rfl
        (.of (decodes_text _) (.of (decodes_text _)
          (.last (.ifSame (fun s _ => decodes_text s) rfl .nil))))
        fun fuel => ⟨_, rfl, fun _ j hj => by rw [hj]; rfl⟩
  | hyperUniqueCardinality name fieldName =>
      exact .of Aggregator.soundNode_column {} readWithin_succ rfl rfl
        (.of (decodes_text _) (.of (decodes_text _) .nil))
        fun fuel => ⟨_, rfl, fun _ j hj => by rw [hj]; rfl⟩
  | sketchEstimate name operand ih =>
      have hoperand := ih hfits
      refine .of soundNode_estimate {} readWithin_succ rfl ?_ (.of (decodes_text _) (.raw .nil))
        fun fuel => ⟨_, rfl, fun hdepth j hj => ?_⟩
      · rw [retained, encode, encode, hoperand.again]
      · have hdepth := hdepth ("field", operand.encode) (by simp)
        rw [readEstimate, hj, ok_bind, hoperand.reads fuel hdepth]
        rfl
  | sketchSetOp name operation size operands ih =>
      have hoperands := fun ps hps p hp => ih ps hps p hp (fitOperands_iff.1 hfits.2 ps hps p hp)
      refine .of soundNode_setOp {} readWithin_succ (encode_sketchSetOp _ _ _ _) ?_
        (.ifSame (fun s _ => decodes_text s) rfl (.of (decodes_text _)
          (.ifSame (fun n hn => decodes_int (hfits.1 n hn)) rfl (.rawItems .nil))))
        fun fuel => ⟨_, rfl, fun hdepth j hj => ?_⟩
      · rw [retained, encode_sketchSetOp, encode_sketchSetOp, listOrNull_operands hoperands]
      · have hread := readNodes_retained hoperands
          (hdepth ("fields", listOrNull encode operands) (by simp))
        simp only [readSetOp, hj, ok_bind, ofName?_name]
        rw [hread]
        rfl
  | sketchHistogram name operand bins ih =>
      have hoperand := ih hfits.1
      refine .of soundNode_histogram {} readWithin_succ rfl ?_
        (.of (decodes_text _) (.raw
          (Aggregator.fills_bins hfits.2 SketchWire.bins (fun s bins => { s with bins })
            (fun _ _ _ => rfl) (fun _ _ => rfl) rfl rfl)))
        fun fuel => ⟨_, rfl, fun hdepth j hj => ?_⟩
      · rw [retained, encode, encode, hoperand.again, Aggregator.binMembers_retained]
      · have hdepth := hdepth ("field", operand.encode) (by simp)
        rw [readHistogram, hj, ok_bind, hoperand.reads fuel hdepth]
        rfl
  | zScore name size1 success1 size2 success2 ih1 ih2 ih3 ih4 =>
      obtain ⟨hfits1, hfits2, hfits3, hfits4⟩ := hfits
      have h1 := ih1 hfits1
      have h2 := ih2 hfits2
      have h3 := ih3 hfits3
      have h4 := ih4 hfits4
      refine .of soundNode_samples {} readWithin_succ rfl ?_
        (.of (decodes_text _) (.raw (.raw (.raw (.raw .nil)))))
        fun fuel => ⟨_, rfl, fun hdepth j hj => ?_⟩
      · rw [retained, encode, encode, h1.again, h2.again, h3.again, h4.again]
      · have hdepth1 := hdepth ("sample1Size", size1.encode) (by simp)
        have hdepth2 := hdepth ("successCount1", success1.encode) (by simp)
        have hdepth3 := hdepth ("sample2Size", size2.encode) (by simp)
        have hdepth4 := hdepth ("successCount2", success2.encode) (by simp)
        rw [readSamples, hj, ok_bind, h1.reads fuel hdepth1, ok_bind, h2.reads fuel hdepth2,
          ok_bind, h3.reads fuel hdepth3, ok_bind, h4.reads fuel hdepth4]
        rfl
  | pValue name score ih =>
      have hscore := ih hfits
      refine .of soundNode_pValue ("", none) readWithin_succ rfl ?_
        (.of (decodes_text _) (.raw .nil)) fun fuel => ⟨_, rfl, fun hdepth j hj => ?_⟩
      · rw [retained, encode, encode, hscore.again]
      · have hdepth := hdepth ("zScore", score.encode) (by simp)
        rw [readPValue, hj, ok_bind, hscore.reads fuel hdepth]
        rfl

theorem settles (p : PostAggregator) (hfits : p.Fits) : p.encode.Settles := by
  have hrestores := p.restores hfits
  induction p using PostAggregator.induction with
  | fieldAccess _ _ | finalizingFieldAccess _ _ | expression _ _ _ | hyperUniqueCardinality _ _ =>
      exact hrestores.settles rfl (by simp [Aggregator.columnMembers])
  | constant name value =>
      exact hrestores.settles rfl (by simpa using settles_ofDouble hfits)
  | arithmetic name fn operands ordering ih =>
      have hoperands := fun ps hps p hp =>
        have hp' := fitOperands_iff.1 hfits ps hps p hp
        ih ps hps p hp hp' (p.restores hp')
      exact hrestores.settles (encode_arithmetic _ _ _ _) (by simpa using hoperands)
  | extremum kind name operands ih =>
      have hoperands := fun ps hps p hp =>
        have hp' := fitOperands_iff.1 hfits ps hps p hp
        ih ps hps p hp hp' (p.restores hp')
      exact hrestores.settles (encode_extremum _ _ _) (by simpa using hoperands)
  | sketchEstimate name operand ih =>
      exact hrestores.settles rfl (by simpa using ih hfits (operand.restores hfits))
  | sketchSetOp name operation size operands ih =>
      have hoperands := fun ps hps p hp =>
        have hp' := fitOperands_iff.1 hfits.2 ps hps p hp
        ih ps hps p hp hp' (p.restores hp')
      exact hrestores.settles (encode_sketchSetOp _ _ _ _) (by simpa using hoperands)
  | sketchHistogram name operand bins ih =>
      have hoperand := ih hfits.1 (operand.restores hfits.1)
      exact hrestores.settles rfl (by simpa using ⟨hoperand, Aggregator.allSettle_bins hfits.2⟩)
  | zScore name size1 success1 size2 success2 ih1 ih2 ih3 ih4 =>
      obtain ⟨hfits1, hfits2, hfits3, hfits4⟩ := hfits
      have h1 := ih1 hfits1 (size1.restores hfits1)
      have h2 := ih2 hfits2 (success1.restores hfits2)
      have h3 := ih3 hfits3 (size2.restores hfits3)
      have h4 := ih4 hfits4 (success2.restores hfits4)
      exact hrestores.settles rfl (by simp [h1, h2, h3, h4])
  | pValue name score ih =>
      exact hrestores.settles rfl (by simpa using ih hfits (score.restores hfits))

end PostAggregator

end TenantQuery
