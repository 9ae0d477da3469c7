import TenantQuery.Dimension
import TenantQuery.Proofs.Json.Entries
import TenantQuery.Proofs.Json.Node

namespace TenantQuery

open Json Outcome

namespace Lookup

def Fits : Lookup → Prop
  | .registered _ => True
  | .inline entries => ∀ es ∈ entries, (es.map (·.1)).Nodup

/-- What the written form keeps of a lookup table. -/
def settled : Lookup → Lookup
  | .registered name => .registered (Text.normal name)
  | .inline entries => .inline (entries.map settledEntries)

theorem soundNode_name : SoundNode nameFields :=
  .of (by decide) (by simp [nameFields])

theorem soundNode_entries : SoundNode entryFields :=
  .of (by decide) (by simp [entryFields])

theorem encode_inline (entries : List (String × String)) :
    encode (.inline (some entries)) = tagged "map" [("map", entriesObject entries)] :=
  rfl

theorem rereads {l : Lookup} (hfits : l.Fits) :
    Rereads encode (fun _ => read) l l.settled := by
  cases l with
  | registered name =>
      exact .of soundNode_name "" (fun _ _ => rfl) rfl rfl (Text.normal_eq_self (by decide))
        (.of (codes_text _) .nil) fun fuel => ⟨_, rfl, fun _ j hj => by rw [hj]; rfl⟩
  | inline entries =>
      cases entries with
      | none =>
          exact .of soundNode_entries none (fun _ _ => rfl) rfl rfl
            (Text.normal_eq_self (by decide)) (.null .nil)
            fun fuel => ⟨_, rfl, fun _ j hj => by rw [hj]; rfl⟩
      | some entries =>
          have hkeys := hfits entries rfl
          exact .of soundNode_entries none (fun _ _ => rfl) (encode_inline _) (encode_inline _)
            (Text.normal_eq_self (by decide))
            (.cons (alike_entries hkeys) rfl
              (fun hsettles => by simp only [Member.of, read_entries hkeys hsettles]; rfl) .nil)
            fun fuel => ⟨_, rfl, fun _ j hj => by rw [hj]; rfl⟩

end Lookup

namespace Extraction

/-- Numbers and tables that a document can hold. -/
def Fits : Extraction → Prop
  | .regex e => Word.Holds e.index
  | .lookup e => e.lookup.Fits

def settled : Extraction → Extraction
  | .regex e =>
    .regex ⟨Text.normal e.expr, e.index, e.replaceMissingValue,
      e.replaceMissingValueWith.map Text.normal⟩
  | .lookup e =>
    .lookup ⟨e.lookup.settled, e.retainMissingValue, e.injective,
      e.replaceMissingValueWith.map Text.normal⟩

theorem soundNode_regex : SoundNode regexFields :=
  .of (by decide) (by simp [regexFields, Member.independent_of])

theorem soundNode_lookup : SoundNode lookupFields :=
  .of (by decide) (by simp [lookupFields, Member.independent_of])

theorem rereads {e : Extraction} (hfits : e.Fits) :
    Rereads encode (fun _ => read) e e.settled := by
  cases e with
  | regex e =>
      exact .of soundNode_regex {} (fun _ _ => rfl) rfl rfl (Text.normal_eq_self (by decide))
        (.of (codes_text _) (.of (codes_int_from 1 hfits) (.of (codes_flag _)
          (.last (.ifSome (fun s _ => codes_text s) rfl .nil)))))
        fun fuel => ⟨_, rfl, fun _ j hj => by rw [hj]; rfl⟩
  | lookup e =>
      have hlookup := Lookup.rereads hfits
      refine .of soundNode_lookup {} (fun _ _ => rfl) rfl rfl (Text.normal_eq_self (by decide))
        (.raw hlookup.alike hlookup.notNull (.of (codes_flag _) (.of (codes_flag _)
          (.last (.ifSome (fun s _ => codes_text s) rfl .nil)))))
        fun fuel => ⟨_, rfl, fun hms j hj => ?_⟩
      obtain ⟨hsettles, hdepth⟩ := hms _ List.mem_cons_self
      rw [readLookup, hj, ok_bind, hlookup.reads hsettles fuel hdepth]
      rfl

end Extraction

namespace Dimension

def Fits : Dimension → Prop
  | .plain _ => True
  | .extracted _ function => function.Fits

def settledPlain (d : PlainDimension) : PlainDimension :=
  ⟨Text.normal d.dimension, Text.normal d.outputName, d.outputType.map Text.normal⟩

/-- What the written form keeps of a dimension. -/
def settled : Dimension → Dimension
  | .plain d => .plain (settledPlain d)
  | .extracted d function => .extracted (settledPlain d) function.settled

theorem soundNode_plain : SoundNode plainFields :=
  .of (by decide) (by simp [plainFields, Member.independent_of])

theorem soundNode_extracted : SoundNode extractedFields :=
  .of (by decide)
    (by simp [extractedFields, plainFields, Member.lift_of, Member.independent_of])

theorem encode_extracted (d : PlainDimension) (function : Extraction) :
    encode (.extracted d function) = tagged "extraction" (("dimension", .string d.dimension) ::
      ("outputName", .string d.outputName) :: (ifSome "outputType" .string d.outputType ++
        [("extractionFn", function.encode)])) := by
  simp [encode, plainMembers]

theorem rereads {d : Dimension} (hfits : d.Fits) :
    Rereads encode (fun _ => read) d d.settled := by
  cases d with
  | plain d =>
      exact .of soundNode_plain {} (fun _ _ => rfl) rfl rfl (Text.normal_eq_self (by decide))
        (.of (codes_text _) (.of (codes_text _)
          (.last (.ifSome (fun s _ => codes_text s) rfl .nil))))
        fun fuel => ⟨_, rfl, fun _ j hj => by rw [hj]; rfl⟩
  | extracted d function =>
      have hfunction := Extraction.rereads hfits
      have hwrites : Writes extractedFields {}
          (("dimension", .string d.dimension) :: ("outputName", .string d.outputName) ::
            (ifSome "outputType" .string d.outputType ++ [("extractionFn", function.encode)]))
          (("dimension", .string (Text.normal d.dimension)) ::
            ("outputName", .string (Text.normal d.outputName)) ::
            (ifSome "outputType" .string (d.outputType.map Text.normal) ++
              [("extractionFn", function.settled.encode)]))
          ⟨settledPlain d, some function.encode.settled⟩ := by
        simp only [extractedFields, plainFields, List.map_cons, List.map_nil, Member.lift_of,
          List.cons_append, List.nil_append]
        exact .of (codes_text _) (.of (codes_text _) (.ifSome (fun s _ => codes_text s) rfl
          (.raw hfunction.alike hfunction.notNull .nil)))
      refine .of soundNode_extracted {} (fun _ _ => rfl) (encode_extracted _ _)
        (encode_extracted _ _) (Text.normal_eq_self (by decide)) hwrites
        fun fuel => ⟨_, rfl, fun hms j hj => ?_⟩
      obtain ⟨hsettles, hdepth⟩ := hms ("extractionFn", function.encode) (by simp)
      rw [readExtracted, hj, ok_bind, hfunction.reads hsettles fuel hdepth]
      rfl

end Dimension

namespace Metric

/-- What the written form keeps of a ranking. -/
def settled : Metric → Metric
  | .numeric metric => .numeric (Text.normal metric)
  | .dimension ordering stop => .dimension (ordering.map Text.normal) (stop.map Text.normal)
  | .inverted metric => .inverted (settled metric)

theorem soundNode_numeric : SoundNode numericFields :=
  .of (by decide) (by simp [numericFields])

theorem soundNode_dimension : SoundNode dimensionFields :=
  .of (by decide) (by simp [dimensionFields, Member.independent_of])

theorem soundNode_inverted : SoundNode invertedFields :=
  .of (by decide) (by simp [invertedFields])

theorem readWithin_succ (fuel : Nat) (members : List (String × Json)) :
    readWithin (fuel + 1) (some (.object members)) =
      readNode "metric" (forms (readWithin fuel)) (some (.object members)) :=
  rfl

theorem rereads (m : Metric) : Rereads encode readWithin m m.settled := by
  induction m with
  | numeric metric =>
      exact .of soundNode_numeric "" readWithin_succ rfl rfl (Text.normal_eq_self (by decide))
        (.of (codes_text _) .nil) fun fuel => ⟨_, rfl, fun _ j hj => by rw [hj]; rfl⟩
  | dimension ordering stop =>
      exact .of soundNode_dimension (none, none) readWithin_succ rfl rfl
        (Text.normal_eq_self (by decide)) (.ifSome (fun s _ => codes_text s) rfl
          (.last (.ifSome (fun s _ => codes_text s) rfl .nil)))
        fun fuel => ⟨_, rfl, fun _ j hj => by rw [hj]; rfl⟩
  | inverted metric ih =>
      refine .of soundNode_inverted none readWithin_succ rfl rfl (Text.normal_eq_self (by decide))
        (.raw ih.alike ih.notNull .nil) fun fuel => ⟨_, rfl, fun hms j hj => ?_⟩
      obtain ⟨hsettles, hdepth⟩ := hms _ List.mem_cons_self
      rw [hj, ok_bind, ih.reads hsettles fuel hdepth]
      rfl

end Metric

end TenantQuery
