import TenantQuery.Proofs.Dimension.Codec
import TenantQuery.Proofs.Json.Verbatim

namespace TenantQuery

open Json Outcome

namespace Lookup

def Sorted : Lookup → Prop
  | .registered _ => True
  | .inline entries => ∀ es ∈ entries, Ordered es

theorem Sorted.fits {l : Lookup} (h : l.Sorted) : l.Fits := by
  cases l with
  | registered name => trivial
  | inline entries => exact fun es hes => (h es hes).nodup

theorem restores {l : Lookup} (hsorted : l.Sorted) : Restores encode (fun _ => read) l l := by
  cases l with
  | registered name =>
      exact .of soundNode_name "" (fun _ _ => rfl) rfl rfl (.of (decodes_text _) .nil)
        fun fuel => ⟨_, rfl, fun _ j hj => by rw [hj]; rfl⟩
  | inline entries =>
      cases entries with
      | none =>
          exact .of soundNode_entries none (fun _ _ => rfl) rfl rfl (.cons rfl .nil)
            fun fuel => ⟨_, rfl, fun _ j hj => by rw [hj]; rfl⟩
      | some entries =>
          have hentries := decodes_entries (hsorted entries rfl)
          exact .of soundNode_entries none (fun _ _ => rfl) (encode_inline _) rfl
            (.of hentries .nil) fun fuel => ⟨_, rfl, fun _ j hj => by rw [hj]; rfl⟩

def Distinct : Lookup → Prop
  | .registered _ => True
  | .inline entries => ∀ es ∈ entries, (es.map fun e => Text.normal e.1).Nodup

theorem settles_iff {l : Lookup} (hfits : l.Fits) : l.encode.Settles ↔ l.Distinct := by
  cases l with
  | registered name =>
      have hsorted : (registered name).Sorted := trivial
      exact iff_of_true ((restores hsorted).settles rfl (by simp)) trivial
  | inline entries =>
      cases entries with
      | none =>
          have hsorted : (inline none).Sorted := by simp [Sorted]
          exact iff_of_true ((restores hsorted).settles rfl (by simp)) (by simp [Distinct])
      | some entries =>
          have hnames : Sound.names ([("type", .string "map"),
              ("map", entriesObject entries)].map (·.1)) = true :=
            show Sound.names ["type", "map"] = true by decide
          rw [encode_inline, tagged, settles_of_names hnames, allSettle_cons, allSettle_cons,
            settles_entries (hfits entries rfl)]
          simp [Distinct]

end Lookup

namespace Extraction

def Sorted : Extraction → Prop
  | .regex e => Word.Holds e.index
  | .lookup e => e.lookup.Sorted

theorem Sorted.fits {e : Extraction} (h : e.Sorted) : e.Fits := by
  cases e with
  | regex e => exact h
  | lookup e => exact Lookup.Sorted.fits h

theorem fills_lookup (e : LookupExtraction) :
    Fills lookupFields {}
      ([("lookup", e.lookup.encode), ("retainMissingValue", .bool e.retainMissingValue),
        ("injective", .bool e.injective)] ++
        ifSome "replaceMissingValueWith" .string e.replaceMissingValueWith)
      ⟨some e.lookup.encode, e.retainMissingValue, e.injective, e.replaceMissingValueWith⟩ :=
  .raw (.of (decodes_flag _) (.of (decodes_flag _)
    (.last (.ifSame (fun s _ => decodes_text s) rfl .nil))))

theorem restores {e : Extraction} (hsorted : e.Sorted) : Restores encode (fun _ => read) e e := by
  cases e with
  | regex e =>
      exact .of soundNode_regex {} (fun _ _ => rfl) rfl rfl
        (.of (decodes_text _) (.of (decodes_int_from 1 hsorted) (.of (decodes_flag _)
          (.last (.ifSame (fun s _ => decodes_text s) rfl .nil)))))
        fun fuel => ⟨_, rfl, fun _ j hj => by rw [hj]; rfl⟩
  | lookup e =>
      have hlookup := Lookup.restores hsorted
      refine .of soundNode_lookup {} (fun _ _ => rfl) rfl rfl (fills_lookup e)
        fun fuel => ⟨_, rfl, fun hdepth j hj => ?_⟩
      rw [readLookup, hj, ok_bind, hlookup.reads fuel (hdepth _ List.mem_cons_self)]
      rfl

/-- Keys of a table stay apart where they are composed. -/
def Distinct : Extraction → Prop
  | .regex _ => True
  | .lookup e => e.lookup.Distinct

theorem settles_iff {e : Extraction} (hfits : e.Fits) : e.encode.Settles ↔ e.Distinct := by
  cases e with
  | regex e =>
      have hsorted : (regex e).Sorted := hfits
      exact iff_of_true ((restores hsorted).settles rfl (by simp)) trivial
  | lookup e =>
      have hlookup := Lookup.settles_iff hfits
      rw [encode, (fills_lookup e).settles_tagged soundNode_lookup, Distinct, ← hlookup]
      simp

end Extraction

namespace Dimension

def Sorted : Dimension → Prop
  | .plain _ => True
  | .extracted _ function => function.Sorted

theorem Sorted.fits {d : Dimension} (h : d.Sorted) : d.Fits := by
  cases d with
  | plain d => trivial
  | extracted d function => exact Extraction.Sorted.fits h

theorem fills_extracted (d : PlainDimension) (function : Extraction) :
    Fills extractedFields {}
      (("dimension", .string d.dimension) :: ("outputName", .string d.outputName) ::
        (ifSome "outputType" .string d.outputType ++ [("extractionFn", function.encode)]))
      ⟨d, some function.encode⟩ := by
  simp only [extractedFields, plainFields, List.map_cons, List.map_nil, Member.lift_of,
    List.cons_append, List.nil_append]
  exact .of (decodes_text _) (.of (decodes_text _)
    (.ifSame (fun s _ => decodes_text s) rfl (.raw .nil)))

theorem restores {d : Dimension} (hsorted : d.Sorted) : Restores encode (fun _ => read) d d := by
  cases d with
  | plain d =>
      exact .of soundNode_plain {} (fun _ _ => rfl) rfl rfl
        (.of (decodes_text _) (.of (decodes_text _)
          (.last (.ifSame (fun s _ => decodes_text s) rfl .nil))))
        fun fuel => ⟨_, rfl, fun _ j hj => by rw [hj]; rfl⟩
  | extracted d function =>
      have hfunction := Extraction.restores hsorted
      refine .of soundNode_extracted {} (fun _ _ => rfl) (encode_extracted _ _) rfl
        (fills_extracted d function) fun fuel => ⟨_, rfl, fun hdepth j hj => ?_⟩
      have hdepth := hdepth ("extractionFn", function.encode) (by simp)
      rw [readExtracted, hj, ok_bind, hfunction.reads fuel hdepth]
      rfl

/-- Keys of a table stay apart where they are composed. -/
def Distinct : Dimension → Prop
  | .plain _ => True
  | .extracted _ function => function.Distinct

theorem settles_iff {d : Dimension} (hfits : d.Fits) : d.encode.Settles ↔ d.Distinct := by
  cases d with
  | plain d =>
      have hsorted : (plain d).Sorted := trivial
      exact iff_of_true ((restores hsorted).settles rfl (by simp [plainMembers])) trivial
  | extracted d function =>
      have hfunction := Extraction.settles_iff hfits
      rw [encode_extracted, (fills_extracted d function).settles_tagged soundNode_extracted, Distinct,
        ← hfunction]
      simp

end Dimension

theorem Metric.restores (m : Metric) : Restores encode readWithin m m := by
  induction m with
  | numeric metric =>
      exact .of soundNode_numeric "" readWithin_succ rfl rfl (.of (decodes_text _) .nil)
        fun fuel => ⟨_, rfl, fun _ j hj => by rw [hj]; rfl⟩
  | dimension ordering stop =>
      exact .of soundNode_dimension (none, none) readWithin_succ rfl rfl
        (.ifSame (fun s _ => decodes_text s) rfl
          (.last (.ifSame (fun s _ => decodes_text s) rfl .nil)))
        fun fuel => ⟨_, rfl, fun _ j hj => by rw [hj]; rfl⟩
  | inverted metric ih =>
      refine .of soundNode_inverted none readWithin_succ rfl rfl (.raw .nil)
        fun fuel => ⟨_, rfl, fun hdepth j hj => ?_⟩
      rw [hj, ok_bind, ih.reads fuel (hdepth _ List.mem_cons_self)]
      rfl

theorem Metric.settles (m : Metric) : m.encode.Settles := by
  induction m with
  | numeric metric => exact (restores _).settles rfl (by simp)
  | dimension ordering stop => exact (restores _).settles rfl (by simp)
  | inverted metric ih => exact (restores _).settles rfl (by simpa using ih)

end TenantQuery
