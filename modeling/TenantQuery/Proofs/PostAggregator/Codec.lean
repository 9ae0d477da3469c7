import TenantQuery.PostAggregator.Basic
import TenantQuery.Proofs.Aggregator.Codec

namespace TenantQuery

open Json Outcome

namespace PostAggregator

/-- Induction over post-aggregators: each after its operands. -/
@[elab_as_elim]
theorem induction {P : PostAggregator → Prop}
    (arithmetic : ∀ name fn operands ordering, (∀ ps ∈ operands, ∀ p ∈ ps, P p) →
      P (.arithmetic name fn operands ordering))
    (fieldAccess : ∀ name fieldName, P (.fieldAccess name fieldName))
    (finalizingFieldAccess : ∀ name fieldName, P (.finalizingFieldAccess name fieldName))
    (constant : ∀ name value, P (.constant name value))
    (extremum : ∀ kind name operands, (∀ ps ∈ operands, ∀ p ∈ ps, P p) →
      P (.extremum kind name operands))
    (expression : ∀ name source ordering, P (.expression name source ordering))
    (hyperUniqueCardinality : ∀ name fieldName, P (.hyperUniqueCardinality name fieldName))
    (sketchEstimate : ∀ name operand, P operand → P (.sketchEstimate name operand))
    (sketchSetOp : ∀ name operation size operands, (∀ ps ∈ operands, ∀ p ∈ ps, P p) →
      P (.sketchSetOp name operation size operands))
    (sketchHistogram : ∀ name operand bins, P operand → P (.sketchHistogram name operand bins))
    (zScore : ∀ name size1 success1 size2 success2, P size1 → P success1 → P size2 → P success2 →
      P (.zScore name size1 success1 size2 success2))
    (pValue : ∀ name score, P score → P (.pValue name score)) (p : PostAggregator) : P p := by
  refine @PostAggregator.rec P (fun operands => ∀ ps ∈ operands, ∀ p ∈ ps, P p)
    (fun ps => ∀ p ∈ ps, P p) arithmetic fieldAccess finalizingFieldAccess constant extremum
    expression hyperUniqueCardinality sketchEstimate sketchSetOp sketchHistogram zScore pValue
    ?_ ?_ ?_ ?_ p
  · intro ps hps
    cases hps
  · intro ps h ps' hps'
    cases hps'
    exact h
  · exact List.forall_mem_nil _
  · intro p ps hp hps
    exact List.forall_mem_cons.2 ⟨hp, hps⟩

mutual

/-- Numbers that a document can hold. -/
def Fits : PostAggregator → Prop
  | .arithmetic _ _ operands _ => FitOperands operands
  | .constant _ value => value.isFinite = true
  | .extremum _ _ operands => FitOperands operands
  | .sketchEstimate _ operand => Fits operand
  | .sketchSetOp _ _ size operands => (∀ n ∈ size, Word.Holds n) ∧ FitOperands operands
  | .sketchHistogram _ operand bins => Fits operand ∧ bins.Fits
  | .zScore _ size1 success1 size2 success2 =>
    Fits size1 ∧ Fits success1 ∧ Fits size2 ∧ Fits success2
  | .pValue _ score => Fits score
  | .fieldAccess _ _ | .finalizingFieldAccess _ _ | .expression _ _ _
  | .hyperUniqueCardinality _ _ => True

def FitOperands : Option (List PostAggregator) → Prop
  | none => True
  | some ps => FitAll ps

def FitAll : List PostAggregator → Prop
  | [] => True
  | p :: ps => Fits p ∧ FitAll ps

end

mutual

/-- What the written form keeps of a post-aggregator. -/
def settled : PostAggregator → PostAggregator
  | .arithmetic name fn operands ordering =>
    .arithmetic (Text.normal name) fn (settledOperands operands) (ordering.map Text.normal)
  | .fieldAccess name fieldName => .fieldAccess (name.map Text.normal) (Text.normal fieldName)
  | .finalizingFieldAccess name fieldName =>
    .finalizingFieldAccess (name.map Text.normal) (Text.normal fieldName)
  | .constant name value => .constant (Text.normal name) value.settled
  | .extremum kind name operands => .extremum kind (Text.normal name) (settledOperands operands)
  | .expression name source ordering =>
    .expression (Text.normal name) (Text.normal source) (ordering.map Text.normal)
  | .hyperUniqueCardinality name fieldName =>
    .hyperUniqueCardinality (Text.normal name) (Text.normal fieldName)
  | .sketchEstimate name operand => .sketchEstimate (Text.normal name) (settled operand)
  | .sketchSetOp name operation size operands =>
    .sketchSetOp (name.map Text.normal) operation size (settledOperands operands)
  | .sketchHistogram name operand bins =>
    .sketchHistogram (Text.normal name) (settled operand) bins.settled
  | .zScore name size1 success1 size2 success2 =>
    .zScore (Text.normal name) (settled size1) (settled success1) (settled size2)
      (settled success2)
  | .pValue name score => .pValue (Text.normal name) (settled score)

def settledOperands : Option (List PostAggregator) → Option (List PostAggregator)
  | none => none
  | some ps => some (settledAll ps)

def settledAll : List PostAggregator → List PostAggregator
  | [] => []
  | p :: ps => settled p :: settledAll ps

end

theorem fitAll_iff {ps : List PostAggregator} : FitAll ps ↔ ∀ p ∈ ps, p.Fits := by
  induction ps with
  | nil => simp [FitAll]
  | cons p ps ih => simp [FitAll, ih]

theorem fitOperands_iff {operands : Option (List PostAggregator)} :
    FitOperands operands ↔ ∀ ps ∈ operands, ∀ p ∈ ps, p.Fits := by
  cases operands with
  | none => simp [FitOperands]
  | some ps => simp [FitOperands, fitAll_iff]

theorem settledOperands_eq (operands : Option (List PostAggregator)) :
    settledOperands operands = operands.map (·.map settled) := by
  have hall (ps : List PostAggregator) : settledAll ps = ps.map settled := by
    induction ps with
    | nil => rfl
    | cons p ps ih => rw [settledAll, ih, List.map_cons]
  cases operands with
  | none => rfl
  | some ps => rw [settledOperands, hall, Option.map_some]

theorem encodeOperands_eq (operands : Option (List PostAggregator)) :
    encodeOperands operands = listOrNull encode operands := by
  have hall (ps : List PostAggregator) : encodeAll ps = ps.map encode := by
    induction ps with
    | nil => rfl
    | cons p ps ih => rw [encodeAll, ih, List.map_cons]
  cases operands with
  | none => rfl
  | some ps => rw [encodeOperands, hall, listOrNull]

theorem soundNode_arithmetic : SoundNode arithmeticFields :=
  .of (by decide) (by simp [arithmeticFields, Member.independent_of])

theorem soundNode_extremum : SoundNode extremumFields :=
  .of (by decide) (by simp [extremumFields, Member.independent_of])

theorem soundNode_setOp : SoundNode setOpFields :=
  .of (by decide) (by simp [setOpFields, Member.independent_of])

theorem soundNode_access : SoundNode accessFields :=
  .of (by decide) (by simp [accessFields, Member.independent_of])

theorem soundNode_constant : SoundNode constantFields :=
  .of (by decide) (by simp [constantFields, Member.independent_of])

theorem soundNode_expression : SoundNode expressionFields :=
  .of (by decide) (by simp [expressionFields, Member.independent_of])

theorem soundNode_estimate : SoundNode estimateFields :=
  .of (by decide) (by simp [estimateFields, Member.independent_of])

theorem soundNode_histogram : SoundNode histogramFields :=
  .of (by decide)
    (by simp [histogramFields, estimateFields, Aggregator.binFields, Member.lift_of,
      Member.independent_of])

theorem soundNode_samples : SoundNode samplesFields :=
  .of (by decide) (by simp [samplesFields, Member.independent_of])

theorem soundNode_pValue : SoundNode pValueFields :=
  .of (by decide) (by simp [pValueFields, Member.independent_of])

theorem readWithin_succ (fuel : Nat) (members : List (String × Json)) :
    readWithin (fuel + 1) (some (.object members)) =
      readNode "postAggregator" (forms (readWithin fuel)) (some (.object members)) :=
  rfl

theorem normal_symbol (fn : ArithmeticFunction) : Text.normal fn.symbol = fn.symbol := by
  cases fn <;>
    · rw [ArithmeticFunction.symbol]
      exact Text.normal_eq_self (by decide)

theorem ofSymbol?_symbol (fn : ArithmeticFunction) :
    ArithmeticFunction.ofSymbol? fn.symbol = some fn := by
  cases fn <;> rfl

theorem normal_setOperation (o : SetOperation) : Text.normal o.name = o.name := by
  cases o <;>
    · rw [SetOperation.name]
      exact Text.normal_eq_self (by decide)

theorem ofName?_name (o : SetOperation) : SetOperation.ofName? o.name = some o := by
  cases o <;> rfl

theorem normal_extremumKind (kind : ExtremumKind) : Text.normal kind.name = kind.name := by
  cases kind <;>
    · rw [ExtremumKind.name]
      exact Text.normal_eq_self (by decide)

theorem lookup_extremumKind (inner : Inner) (kind : ExtremumKind) :
    (forms inner).lookup kind.name = some (readExtremum inner kind) := by
  cases kind <;> rfl

theorem encode_arithmetic (name : String) (fn : ArithmeticFunction)
    (operands : Option (List PostAggregator)) (ordering : Option String) :
    encode (.arithmetic name fn operands ordering) = tagged "arithmetic" (("name", .string name) ::
      ("fn", .string fn.symbol) :: ("fields", listOrNull encode operands) ::
        ifSome "ordering" .string ordering) := by
  simp [encode, encodeOperands_eq]

theorem encode_extremum (kind : ExtremumKind) (name : String)
    (operands : Option (List PostAggregator)) :
    encode (.extremum kind name operands) =
      tagged kind.name [("name", .string name), ("fields", listOrNull encode operands)] := by
  rw [encode, encodeOperands_eq]

theorem encode_sketchSetOp (name : Option String) (operation : SetOperation) (size : Option Int)
    (operands : Option (List PostAggregator)) :
    encode (.sketchSetOp name operation size operands) = tagged "thetaSketchSetOp"
      (ifSome "name" .string name ++ ("func", .string operation.name) ::
        (ifSome "size" ofInt size ++ [("fields", listOrNull encode operands)])) := by
  simp [encode, encodeOperands_eq]

theorem writes_operands {σ : Type} {fs : List (Member σ)} {s t : σ} {ms ms' : List (String × Json)}
    {set : σ → Option (List Json) → σ} {operands : Option (List PostAggregator)}
    (h : ∀ ps ∈ operands, ∀ p ∈ ps, Rereads encode readWithin p p.settled) (hset : set s none = s)
    (hrest : Writes fs (set s (operands.map (·.map fun p => p.encode.settled))) ms ms' t) :
    Writes (.of "fields" Slot.rawItems set :: fs) s (("fields", listOrNull encode operands) :: ms)
      (("fields", listOrNull encode (settledOperands operands)) :: ms') t := by
  rw [settledOperands_eq]
  exact .listOrNull
    (fun ps hps p hp => codes_raw (h ps hps p hp).alike (h ps hps p hp).notNull) hset hrest

theorem readNodes_operands {operands : Option (List PostAggregator)} {fuel : Nat}
    (h : ∀ ps ∈ operands, ∀ p ∈ ps, Rereads encode readWithin p p.settled)
    (hmembers : (listOrNull encode operands).Settles ∧ (listOrNull encode operands).depth < fuel) :
    readNodes (readWithin fuel) (operands.map (·.map fun p => p.encode.settled)) =
      .ok (settledOperands operands) := by
  rw [settledOperands_eq]
  cases operands with
  | none => rfl
  | some ps => exact readNodes_settled (h ps rfl) hmembers

theorem rereads (p : PostAggregator) (hfits : p.Fits) : Rereads encode readWithin p p.settled := by
  induction p using PostAggregator.induction with
  | arithmetic name fn operands ordering ih =>
      have hoperands := fun ps hps p hp => ih ps hps p hp (fitOperands_iff.1 hfits ps hps p hp)
      refine .of soundNode_arithmetic {} readWithin_succ (encode_arithmetic _ _ _ _)
        (encode_arithmetic _ _ _ _) (Text.normal_eq_self (by decide))
        (.of (codes_text _) (.of (codes_composed (normal_symbol fn)) (writes_operands hoperands rfl
          (.last (.ifSome (fun s _ => codes_text s) rfl .nil)))))
        fun fuel => ⟨_, rfl, fun hms j hj => ?_⟩
      have hread := readNodes_operands hoperands
        (hms ("fields", listOrNull encode operands) (by simp))
      simp only [readArithmetic, hj, ok_bind, ofSymbol?_symbol]
      rw [hread]
      rfl
  | fieldAccess name fieldName =>
      exact .of soundNode_access (none, "") readWithin_succ rfl rfl
        (Text.normal_eq_self (by decide))
        (.ifSome (fun s _ => codes_text s) rfl (.of (codes_text _) .nil))
        fun fuel => ⟨_, rfl, fun _ j hj => by rw [hj]; rfl⟩
  | finalizingFieldAccess name fieldName =>
      exact .of soundNode_access (none, "") readWithin_succ rfl rfl
        (Text.normal_eq_self (by decide))
        (.ifSome (fun s _ => codes_text s) rfl (.of (codes_text _) .nil))
        fun fuel => ⟨_, rfl, fun _ j hj => by rw [hj]; rfl⟩
  | constant name value =>
      exact .of soundNode_constant ("", Double.zero) readWithin_succ rfl rfl
        (Text.normal_eq_self (by decide)) (.of (codes_text _) (.of (codes_double hfits) .nil))
        fun fuel => ⟨_, rfl, fun _ j hj => by rw [hj]; rfl⟩
  | extremum kind name operands ih =>
      have hoperands := fun ps hps p hp => ih ps hps p hp (fitOperands_iff.1 hfits ps hps p hp)
      refine .of soundNode_extremum {} readWithin_succ (encode_extremum _ _ _)
        (encode_extremum _ _ _) (normal_extremumKind kind)
        (.of (codes_text _) (writes_operands hoperands rfl .nil))
        fun fuel => ⟨_, lookup_extremumKind _ kind, fun hms j hj => ?_⟩
      have hread := readNodes_operands hoperands
        (hms ("fields", listOrNull encode operands) (by simp))
      simp only [readExtremum, hj, ok_bind]
      rw [hread]
      rfl
  | expression name source ordering =>
      exact .of soundNode_expression {} readWithin_succ rfl rfl (Text.normal_eq_self (by decide))
        (.of (codes_text _) (.of (codes_text _)
          (.last (.ifSome (fun s _ => codes_text s) rfl .nil))))
        fun fuel => ⟨_, rfl, fun _ j hj => by rw [hj]; rfl⟩
  | hyperUniqueCardinality name fieldName =>
      exact .of Aggregator.soundNode_column {} readWithin_succ rfl rfl
        (Text.normal_eq_self (by decide)) (.of (codes_text _) (.of (codes_text _) .nil))
        fun fuel => ⟨_, rfl, fun _ j hj => by rw [hj]; rfl⟩
  | sketchEstimate name operand ih =>
      have hoperand := ih hfits
      refine .of soundNode_estimate {} readWithin_succ rfl rfl (Text.normal_eq_self (by decide))
        (.of (codes_text _) (.raw hoperand.alike hoperand.notNull .nil))
        fun fuel => ⟨_, rfl, fun hms j hj => ?_⟩
      obtain ⟨hsettles, hdepth⟩ := hms ("field", operand.encode) (by simp)
      rw [readEstimate, hj, ok_bind, hoperand.reads hsettles fuel hdepth]
      rfl
  | sketchSetOp name operation size operands ih =>
      have hoperands := fun ps hps p hp => ih ps hps p hp (fitOperands_iff.1 hfits.2 ps hps p hp)
      refine .of soundNode_setOp {} readWithin_succ (encode_sketchSetOp _ _ _ _)
        (encode_sketchSetOp _ _ _ _) (Text.normal_eq_self (by decide))
        (.ifSome (fun s _ => codes_text s) rfl
          (.of (codes_composed (normal_setOperation operation))
            (.ifSame (fun n hn => codes_int (hfits.1 n hn)) rfl
              (writes_operands hoperands rfl .nil))))
        fun fuel => ⟨_, rfl, fun hms j hj => ?_⟩
      have hread := readNodes_operands hoperands
        (hms ("fields", listOrNull encode operands) (by simp))
      simp only [readSetOp, hj, ok_bind, ofName?_name]
      rw [hread]
      rfl
  | sketchHistogram name operand bins ih =>
      have hoperand := ih hfits.1
      refine .of soundNode_histogram {} readWithin_succ rfl rfl (Text.normal_eq_self (by decide))
        (.of (codes_text _) (.raw hoperand.alike hoperand.notNull
          (Aggregator.writes_bins hfits.2 SketchWire.bins (fun s bins => { s with bins })
            (fun _ _ _ => rfl) (fun _ _ => rfl) rfl rfl)))
        fun fuel => ⟨_, rfl, fun hms j hj => ?_⟩
      obtain ⟨hsettles, hdepth⟩ := hms ("field", operand.encode) (by simp)
      rw [readHistogram, hj, ok_bind, hoperand.reads hsettles fuel hdepth]
      rfl
  | zScore name size1 success1 size2 success2 ih1 ih2 ih3 ih4 =>
      obtain ⟨hfits1, hfits2, hfits3, hfits4⟩ := hfits
      have h1 := ih1 hfits1
      have h2 := ih2 hfits2
      have h3 := ih3 hfits3
      have h4 := ih4 hfits4
      refine .of soundNode_samples {} readWithin_succ rfl rfl (Text.normal_eq_self (by decide))
        (.of (codes_text _) (.raw h1.alike h1.notNull (.raw h2.alike h2.notNull
          (.raw h3.alike h3.notNull (.raw h4.alike h4.notNull .nil)))))
        fun fuel => ⟨_, rfl, fun hms j hj => ?_⟩
      obtain ⟨hsettles1, hdepth1⟩ := hms ("sample1Size", size1.encode) (by simp)
      obtain ⟨hsettles2, hdepth2⟩ := hms ("successCount1", success1.encode) (by simp)
      obtain ⟨hsettles3, hdepth3⟩ := hms ("sample2Size", size2.encode) (by simp)
      obtain ⟨hsettles4, hdepth4⟩ := hms ("successCount2", success2.encode) (by simp)
      rw [readSamples, hj, ok_bind, h1.reads hsettles1 fuel hdepth1, ok_bind,
        h2.reads hsettles2 fuel hdepth2, ok_bind, h3.reads hsettles3 fuel hdepth3, ok_bind,
        h4.reads hsettles4 fuel hdepth4]
      rfl
  | pValue name score ih =>
      have hscore := ih hfits
      refine .of soundNode_pValue ("", none) readWithin_succ rfl rfl
        (Text.normal_eq_self (by decide))
        (.of (codes_text _) (.raw hscore.alike hscore.notNull .nil))
        fun fuel => ⟨_, rfl, fun hms j hj => ?_⟩
      obtain ⟨hsettles, hdepth⟩ := hms ("zScore", score.encode) (by simp)
      rw [readPValue, hj, ok_bind, hscore.reads hsettles fuel hdepth]
      rfl

end PostAggregator

end TenantQuery
