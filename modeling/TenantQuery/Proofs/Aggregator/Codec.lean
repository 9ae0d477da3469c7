import TenantQuery.Aggregator.Basic
import TenantQuery.Proofs.Filter.Codec

namespace TenantQuery

open Json Outcome

structure Bins.Fits (b : Bins) : Prop where
  splitPoints : ∀ xs ∈ b.splitPoints, ∀ x ∈ xs, x.isFinite = true
  numBins : ∀ n ∈ b.numBins, Word.Holds n

def Bins.settled (b : Bins) : Bins :=
  ⟨(present b.splitPoints).map (·.map Double.settled), b.numBins⟩

namespace Aggregator

/-- The time windows of the filters of an aggregator. -/
def windows : Aggregator → List Interval
  | .filtered filter inner _ => filter.windows ++ windows inner
  | _ => []

def Fits : Aggregator → Prop
  | .thetaSketch a => ∀ n ∈ a.size, Word.Holds n
  | .quantilesSketch a => (∀ n ∈ a.k, Word.Holds n) ∧ ∀ n ∈ a.maxStreamLength, Word.Holds n
  | .filtered _ inner _ => Fits inner
  | .histogram a => a.bins.Fits
  | _ => True

/-- What the written form keeps of an aggregator. -/
def settled : Aggregator → Aggregator
  | .count name => .count (Text.normal name)
  | .column kind a => .column kind ⟨Text.normal a.name, Text.normal a.fieldName⟩
  | .thetaSketch a =>
    .thetaSketch ⟨Text.normal a.name, Text.normal a.fieldName, a.isInputThetaSketch, a.size,
      a.shouldFinalize⟩
  | .hyperUnique a =>
    .hyperUnique ⟨Text.normal a.name, Text.normal a.fieldName, a.isInputHyperUnique, a.round⟩
  | .cardinality a =>
    .cardinality ⟨Text.normal a.name, a.fields.map (·.map Text.normal), a.byRow, a.round⟩
  | .quantilesSketch a =>
    .quantilesSketch ⟨Text.normal a.name, Text.normal a.fieldName, a.k, a.maxStreamLength,
      a.shouldFinalize⟩
  | .filtered filter inner name =>
    .filtered filter.settled (settled inner) (name.map Text.normal)
  | .userCount name => .userCount (name.map Text.normal)
  | .eventCount name => .eventCount (name.map Text.normal)
  | .histogram a => .histogram ⟨a.name.map Text.normal, a.bins.settled⟩

theorem soundNode_name : SoundNode nameFields :=
  .of (by decide) (by simp [nameFields])

theorem soundNode_optionalName : SoundNode optionalNameFields :=
  .of (by decide) (by simp [optionalNameFields])

theorem soundNode_column : SoundNode columnFields :=
  .of (by decide) (by simp [columnFields, Member.independent_of])

theorem soundNode_thetaSketch : SoundNode thetaSketchFields :=
  .of (by decide) (by simp [thetaSketchFields, Member.independent_of])

theorem soundNode_hyperUnique : SoundNode hyperUniqueFields :=
  .of (by decide) (by simp [hyperUniqueFields, Member.independent_of])

theorem soundNode_cardinality : SoundNode cardinalityFields :=
  .of (by decide) (by simp [cardinalityFields, Member.independent_of])

theorem soundNode_quantilesSketch : SoundNode quantilesSketchFields :=
  .of (by decide) (by simp [quantilesSketchFields, Member.independent_of])

theorem soundNode_filtered : SoundNode filteredFields :=
  .of (by decide) (by simp [filteredFields, Member.independent_of])

theorem soundNode_histogram : SoundNode histogramFields :=
  .of (by decide)
    (by simp [histogramFields, binFields, Member.lift_of, Member.independent_of])

/-- The bins of any record that holds some are written after its other members. -/
theorem writes_bins {σ : Type} {bins : Bins} (h : bins.Fits) (get : σ → Bins) (put : σ → Bins → σ)
    {s : σ} (hput : ∀ s b b', put (put s b) b' = put s b') (hget : ∀ s b, get (put s b) = b)
    (hs : get s = {}) (hs' : put s {} = s) :
    Writes (binFields.map (Member.lift get put)) s (binMembers bins) (binMembers bins.settled)
      (put s bins.settled) := by
  simp only [binFields, List.map_cons, List.map_nil, Member.lift_of, binMembers]
  refine .ifAny (fun xs hxs x hx => codes_double (h.splitPoints xs hxs x hx)) ?_ ?_
  · simp only [hs, hs']
  · refine .last (.ifSame (fun n hn => codes_int (h.numBins n hn)) ?_ ?_)
    · simp only [hs, hput, hget]
    · simp only [hs, hput, hget]
      exact .nil

theorem readWithin_succ (fuel : Nat) (members : List (String × Json)) :
    readWithin (fuel + 1) (some (.object members)) =
      readNode "aggregator" (forms (readWithin fuel)) (some (.object members)) :=
  rfl

theorem normal_columnKind (kind : ColumnKind) : Text.normal kind.name = kind.name := by
  cases kind <;>
    · rw [ColumnKind.name]
      exact Text.normal_eq_self (by decide)

theorem lookup_columnKind (inner : Option Json → Except Error Aggregator) (kind : ColumnKind) :
    (forms inner).lookup kind.name =
      some fun j => (readRecord columnFields {} j).map (.column kind) := by
  cases kind <;> rfl

theorem encode_thetaSketch (a : ThetaSketch) :
    encode (.thetaSketch a) = tagged "thetaSketch" (("name", .string a.name) ::
      ("fieldName", .string a.fieldName) :: (ifSome "isInputThetaSketch" .bool a.isInputThetaSketch ++
        (ifSome "size" ofInt a.size ++ ifSome "shouldFinalize" .bool a.shouldFinalize))) := by
  simp [encode, columnMembers]

theorem encode_hyperUnique (a : HyperUnique) :
    encode (.hyperUnique a) = tagged "hyperUnique" (("name", .string a.name) ::
      ("fieldName", .string a.fieldName) :: (ifSome "isInputHyperUnique" .bool a.isInputHyperUnique ++
        ifSome "round" .bool a.round)) := by
  simp [encode, columnMembers]

theorem encode_cardinality (a : Cardinality) :
    encode (.cardinality a) = tagged "cardinality" (("name", .string a.name) ::
      ("fields", listOrNull .string a.fields) :: (ifSome "byRow" .bool a.byRow ++
        ifSome "round" .bool a.round)) := by
  simp [encode]

theorem encode_quantilesSketch (a : QuantilesSketch) :
    encode (.quantilesSketch a) = tagged "quantilesDoublesSketch" (("name", .string a.name) ::
      ("fieldName", .string a.fieldName) :: (ifSome "k" ofInt a.k ++
        (ifSome "maxStreamLength" ofInt a.maxStreamLength ++
          ifSome "shouldFinalize" .bool a.shouldFinalize))) := by
  simp [encode, columnMembers]

theorem rereads (a : Aggregator) (hfits : a.Fits) (hdated : ∀ i ∈ a.windows, i.Dated) :
    Rereads encode readWithin a a.settled := by
  induction a with
  | count name =>
      exact .of soundNode_name "" readWithin_succ rfl rfl (Text.normal_eq_self (by decide))
        (.of (codes_text _) .nil) fun fuel => ⟨_, rfl, fun _ j hj => by rw [hj]; rfl⟩
  | column kind a =>
      exact .of soundNode_column {} readWithin_succ rfl rfl (normal_columnKind kind)
        (.of (codes_text _) (.of (codes_text _) .nil))
        fun fuel => ⟨_, lookup_columnKind _ kind, fun _ j hj => by rw [hj]; rfl⟩
  | thetaSketch a =>
      exact .of soundNode_thetaSketch {} readWithin_succ (encode_thetaSketch _)
        (encode_thetaSketch _) (Text.normal_eq_self (by decide))
        (.of (codes_text _) (.of (codes_text _) (.ifSame (fun b _ => codes_flag b) rfl
          (.ifSame (fun n hn => codes_int (hfits n hn)) rfl
            (.last (.ifSame (fun b _ => codes_flag b) rfl .nil))))))
        fun fuel => ⟨_, rfl, fun _ j hj => by rw [hj]; rfl⟩
  | hyperUnique a =>
      exact .of soundNode_hyperUnique {} readWithin_succ (encode_hyperUnique _)
        (encode_hyperUnique _) (Text.normal_eq_self (by decide))
        (.of (codes_text _) (.of (codes_text _) (.ifSame (fun b _ => codes_flag b) rfl
          (.last (.ifSame (fun b _ => codes_flag b) rfl .nil)))))
        fun fuel => ⟨_, rfl, fun _ j hj => by rw [hj]; rfl⟩
  | cardinality a =>
      exact .of soundNode_cardinality {} readWithin_succ (encode_cardinality _)
        (encode_cardinality _) (Text.normal_eq_self (by decide))
        (.of (codes_text _) (.listOrNull (fun _ _ s _ => codes_text s) rfl
          (.ifSame (fun b _ => codes_flag b) rfl
            (.last (.ifSame (fun b _ => codes_flag b) rfl .nil)))))
        fun fuel => ⟨_, rfl, fun _ j hj => by rw [hj]; rfl⟩
  | quantilesSketch a =>
      exact .of soundNode_quantilesSketch {} readWithin_succ (encode_quantilesSketch _)
        (encode_quantilesSketch _) (Text.normal_eq_self (by decide))
        (.of (codes_text _) (.of (codes_text _) (.ifSame (fun n hn => codes_int (hfits.1 n hn)) rfl
          (.ifSame (fun n hn => codes_int (hfits.2 n hn)) rfl
            (.last (.ifSame (fun b _ => codes_flag b) rfl .nil))))))
        fun fuel => ⟨_, rfl, fun _ j hj => by rw [hj]; rfl⟩
  | filtered filter inner name ih =>
      have hfilter := filter.rereads fun i hi => hdated i (List.mem_append_left _ hi)
      have hinner := ih hfits fun i hi => hdated i (List.mem_append_right _ hi)
      refine .of soundNode_filtered {} readWithin_succ rfl rfl (Text.normal_eq_self (by decide))
        (.raw hfilter.alike hfilter.notNull (.raw hinner.alike hinner.notNull
          (.last (.ifSome (fun s _ => codes_text s) rfl .nil))))
        fun fuel => ⟨_, rfl, fun hms j hj => ?_⟩
      obtain ⟨hsettles, -⟩ := hms _ List.mem_cons_self
      obtain ⟨hsettles', hdepth⟩ := hms _ (List.mem_cons_of_mem _ List.mem_cons_self)
      have hread : Filter.read (some filter.encode.settled) = .ok filter.settled :=
        hfilter.read_some hsettles
      rw [hj, ok_bind, hread, ok_bind, hinner.reads hsettles' fuel hdepth]
      rfl
  | userCount name =>
      exact .of soundNode_optionalName none readWithin_succ rfl rfl
        (Text.normal_eq_self (by decide)) (.last (.ifSome (fun s _ => codes_text s) rfl .nil))
        fun fuel => ⟨_, rfl, fun _ j hj => by rw [hj]; rfl⟩
  | eventCount name =>
      exact .of soundNode_optionalName none readWithin_succ rfl rfl
        (Text.normal_eq_self (by decide)) (.last (.ifSome (fun s _ => codes_text s) rfl .nil))
        fun fuel => ⟨_, rfl, fun _ j hj => by rw [hj]; rfl⟩
  | histogram a =>
      exact .of soundNode_histogram {} readWithin_succ rfl rfl (Text.normal_eq_self (by decide))
        (.ifSome (fun s _ => codes_text s) rfl
          (writes_bins hfits Histogram.bins (fun s bins => { s with bins }) (fun _ _ _ => rfl)
            (fun _ _ => rfl) rfl rfl))
        fun fuel => ⟨_, rfl, fun _ j hj => by rw [hj]; rfl⟩

end Aggregator

end TenantQuery
