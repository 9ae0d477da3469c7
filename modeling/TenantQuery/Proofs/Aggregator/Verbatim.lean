import TenantQuery.Proofs.Aggregator.Codec
import TenantQuery.Proofs.Filter.Verbatim

namespace TenantQuery

open Json Outcome

def Bins.retained (b : Bins) : Bins :=
  ⟨present b.splitPoints, b.numBins⟩

namespace Aggregator

theorem binMembers_retained (b : Bins) : binMembers b.retained = binMembers b := by
  rw [binMembers, binMembers, Bins.retained, ifAny_present]

def retained : Aggregator → Aggregator
  | .filtered filter inner name => .filtered filter.retained (retained inner) name
  | .histogram a => .histogram ⟨a.name, a.bins.retained⟩
  | a => a

/-- The bins of any record that holds some are filled in after its other fields. -/
theorem fills_bins {σ : Type} {bins : Bins} (h : bins.Fits) (get : σ → Bins) (put : σ → Bins → σ)
    {s : σ} (hput : ∀ s b b', put (put s b) b' = put s b') (hget : ∀ s b, get (put s b) = b)
    (hs : get s = {}) (hs' : put s {} = s) :
    Fills (binFields.map (Member.lift get put)) s (binMembers bins) (put s bins.retained) := by
  simp only [binFields, List.map_cons, List.map_nil, Member.lift_of, binMembers]
  refine .ifAnySame (fun xs hxs x hx => (decodes_double (h.splitPoints xs hxs x hx)).reads) ?_ ?_
  · simp only [hs, hs']
  · refine .last (.ifSame (fun n hn => decodes_int (h.numBins n hn)) ?_ ?_)
    · simp only [hs, hput, hget]
    · simp only [hs, hput, hget]
      exact .nil

theorem fills_filtered (filter : Filter) (inner : Aggregator) (name : Option String) :
    Fills filteredFields {}
      ([("filter", filter.encode), ("aggregator", inner.encode)] ++ ifSome "name" .string name)
      ⟨some filter.encode, some inner.encode, name⟩ :=
  .raw (.raw (.last (.ifSame (fun s _ => decodes_text s) rfl .nil)))

theorem restores (a : Aggregator) (hfits : a.Fits) (hdated : ∀ i ∈ a.windows, i.Dated) :
    Restores encode readWithin a a.retained := by
  induction a with
  | count name =>
      exact .of soundNode_name "" readWithin_succ rfl rfl (.of (decodes_text _) .nil)
        fun fuel => ⟨_, rfl, fun _ j hj => by rw [hj]; rfl⟩
  | column kind a =>
      exact .of soundNode_column {} readWithin_succ rfl rfl
        (.of (decodes_text _) (.of (decodes_text _) .nil))
        fun fuel => ⟨_, lookup_columnKind _ kind, fun _ j hj => by rw [hj]; rfl⟩
  | thetaSketch a =>
      exact .of soundNode_thetaSketch {} readWithin_succ (encode_thetaSketch _) rfl
        (.of (decodes_text _) (.of (decodes_text _) (.ifSame (fun b _ => decodes_flag b) rfl
          (.ifSame (fun n hn => decodes_int (hfits n hn)) rfl
            (.last (.ifSame (fun b _ => decodes_flag b) rfl .nil))))))
        fun fuel => ⟨_, rfl, fun _ j hj => by rw [hj]; rfl⟩
  | hyperUnique a =>
      exact .of soundNode_hyperUnique {} readWithin_succ (encode_hyperUnique _) rfl
        (.of (decodes_text _) (.of (decodes_text _) (.ifSame (fun b _ => decodes_flag b) rfl
          (.last (.ifSame (fun b _ => decodes_flag b) rfl .nil)))))
        fun fuel => ⟨_, rfl, fun _ j hj => by rw [hj]; rfl⟩
  | cardinality a =>
      exact .of soundNode_cardinality {} readWithin_succ (encode_cardinality _) rfl
        (.of (decodes_text _) (.listSame (fun _ _ _ _ => rfl)
          (.ifSame (fun b _ => decodes_flag b) rfl
            (.last (.ifSame (fun b _ => decodes_flag b) rfl .nil)))))
        fun fuel => ⟨_, rfl, fun _ j hj => by rw [hj]; rfl⟩
  | quantilesSketch a =>
      exact .of soundNode_quantilesSketch {} readWithin_succ (encode_quantilesSketch _) rfl
        (.of (decodes_text _) (.of (decodes_text _)
          (.ifSame (fun n hn => decodes_int (hfits.1 n hn)) rfl
          (.ifSame (fun n hn => decodes_int (hfits.2 n hn)) rfl
            (.last (.ifSame (fun b _ => decodes_flag b) rfl .nil))))))
        fun fuel => ⟨_, rfl, fun _ j hj => by rw [hj]; rfl⟩
  | filtered filter inner name ih =>
      have hfilter := filter.restores fun i hi => hdated i (List.mem_append_left _ hi)
      have hinner := ih hfits fun i hi => hdated i (List.mem_append_right _ hi)
      refine .of soundNode_filtered {} readWithin_succ rfl ?_ (fills_filtered filter inner name)
        fun fuel => ⟨_, rfl, fun hdepth j hj => ?_⟩
      · rw [retained, encode, encode, hfilter.again, hinner.again]
      · have hread : Filter.read (some filter.encode) = .ok filter.retained := hfilter.read_some
        have hdepth := hdepth _ (List.mem_cons_of_mem _ List.mem_cons_self)
        rw [hj, ok_bind, hread, ok_bind, hinner.reads fuel hdepth]
        rfl
  | userCount name =>
      exact .of soundNode_optionalName none readWithin_succ rfl rfl
        (.last (.ifSame (fun s _ => decodes_text s) rfl .nil))
        fun fuel => ⟨_, rfl, fun _ j hj => by rw [hj]; rfl⟩
  | eventCount name =>
      exact .of soundNode_optionalName none readWithin_succ rfl rfl
        (.last (.ifSame (fun s _ => decodes_text s) rfl .nil))
        fun fuel => ⟨_, rfl, fun _ j hj => by rw [hj]; rfl⟩
  | histogram a =>
      refine .of soundNode_histogram {} readWithin_succ rfl ?_
        (.ifSame (fun s _ => decodes_text s) rfl
          (fills_bins hfits Histogram.bins (fun s bins => { s with bins }) (fun _ _ _ => rfl)
            (fun _ _ => rfl) rfl rfl))
        fun fuel => ⟨_, rfl, fun _ j hj => by rw [hj]; rfl⟩
      rw [retained, encode, encode, binMembers_retained]

theorem allSettle_bins {bins : Bins} (h : bins.Fits) : AllSettle (binMembers bins) := by
  simp only [binMembers, allSettle_append, allSettle_ifAny, allSettle_ifSome, settles_ofInt,
    implies_true, and_true]
  exact fun xs hxs x hx => settles_ofDouble (h.splitPoints xs hxs x hx)

theorem solid (a : Aggregator) (hfits : a.Fits) : Solid a.encode := by
  induction a with
  | filtered filter inner name ih =>
      refine (fills_filtered filter inner name).solid_tagged soundNode_filtered ?_
      rw [List.forall_mem_append, List.forall_mem_cons, List.forall_mem_singleton]
      refine ⟨⟨filter.solid.proper, (ih hfits).proper⟩, ?_⟩
      cases name with
      | none => exact List.forall_mem_nil _
      | some name => exact List.forall_mem_singleton.2 trivial
  | _ => exact (rereads _ hfits (List.forall_mem_nil _)).solid

theorem settles (a : Aggregator) (hfits : a.Fits) : a.encode.Settles := by
  induction a with
  | filtered filter inner name ih =>
      exact ((fills_filtered filter inner name).settles_tagged soundNode_filtered).2
        (by simp [filter.settles, ih hfits])
  | histogram a =>
      exact (restores _ hfits (List.forall_mem_nil _)).settles rfl
        (by simpa using allSettle_bins hfits)
  | _ =>
      exact (restores _ hfits (List.forall_mem_nil _)).settles rfl (by simp [columnMembers])

end Aggregator

end TenantQuery
