import TenantQuery.Proofs.Aggregator.Verbatim
import TenantQuery.Proofs.Query.Fits
import TenantQuery.Proofs.Query.Twin
import TenantQuery.Proofs.Uuid

namespace TenantQuery

open Json Outcome

theorem Uuid.normal_text (u : Uuid) : Text.normal u.text = u.text := by
  refine Text.normal_eq_self ?_
  rw [text, String.toList_ofList, List.all_eq_true]
  intro c hc
  have hdigit : ∀ k < 16, (Text.Hex.digit k).toNat < 0xc0 := by decide
  rcases mem_chars hc with rfl | ⟨k, hk, rfl⟩
  · decide
  · exact decide_eq_true (hdigit k hk)

theorem QueryType.told (t t' : QueryType) :
    Told (fun t : QueryType => .string t.name) (fun t => t) t t' := by
  refine told_name (fun t => ?_) (fun t t' h => ?_) t t'
  · cases t <;> exact Text.normal_eq_self (by decide)
  · cases t <;> cases t' <;> first | rfl | exact absurd h (by decide)

theorem Policy.told (p p' : Policy) :
    Told (fun p : Policy => .string p.name) (fun p => p) p p' := by
  refine told_name (fun p => ?_) (fun p p' h => ?_) p p'
  · cases p <;> exact Text.normal_eq_self (by decide)
  · cases p <;> cases p' <;> first | rfl | exact absurd h (by decide)

theorem Uuid.told (u u' : Uuid) : Told (fun u : Uuid => .string u.text) (fun u => u) u u' :=
  told_name normal_text (fun _ _ => text_injective) u u'

namespace RelativeDate

def places (d : RelativeDate) : List (String × Option Json) :=
  [("component", some d.component.encode), ("offset", some (ofInt d.offset)),
   ("position", some (.string d.position.name))]

theorem orderly (d : RelativeDate) : Orderly d.places := by
  refine .of (show Sound.names ["component", "offset", "position"] = true by decide) ?_
  simp only [places, List.forall_mem_cons]
  exact ⟨solid_some (solid_string _), solid_some (solid_ofInt _), solid_some (solid_string _),
    List.forall_mem_nil _⟩

theorem told (d d' : RelativeDate) : Told encode (fun d => d) d d' := by
  intro hsettles hsettles' heq
  have hagree := d.orderly.agree d'.orderly rfl hsettles hsettles' heq
  simp only [places, List.forall₂_cons] at hagree
  obtain ⟨hcomponent, hoffset, hposition, -⟩ := hagree
  have hcomponent : d.component = d'.component := by
    refine (told_name (fun c => ?_) (fun c c' h => ?_) _ _).eq hcomponent
    · cases c <;> exact Text.normal_eq_self (by decide)
    · cases c <;> cases c' <;> first | rfl | exact absurd h (by decide)
  have hposition : d.position = d'.position := by
    refine (told_name (fun p => ?_) (fun p p' h => ?_) _ _).eq hposition
    · cases p <;> exact Text.normal_eq_self (by decide)
    · cases p <;> cases p' <;> first | rfl | exact absurd h (by decide)
  cases d
  cases d'
  simp only [RelativeDate.mk.injEq]
  exact ⟨hcomponent, (told_ofInt _ _).eq hoffset, hposition⟩

end RelativeDate

namespace RelativeInterval

def places (r : RelativeInterval) : List (String × Option Json) :=
  [("beginningDate", some r.start.encode), ("endDate", some r.stop.encode)]

theorem orderly (r : RelativeInterval) : Orderly r.places := by
  refine .of (show Sound.names ["beginningDate", "endDate"] = true by decide) ?_
  simp only [places, List.forall_mem_cons]
  exact ⟨solid_some r.start.orderly.object_solid, solid_some r.stop.orderly.object_solid,
    List.forall_mem_nil _⟩

theorem told (r r' : RelativeInterval) : Told encode (fun r => r) r r' := by
  intro hsettles hsettles' heq
  have hagree := r.orderly.agree r'.orderly rfl hsettles hsettles' heq
  simp only [places, List.forall₂_cons] at hagree
  obtain ⟨hstart, hstop, -⟩ := hagree
  cases r
  cases r'
  simp only [RelativeInterval.mk.injEq]
  exact ⟨(RelativeDate.told _ _).eq hstart, (RelativeDate.told _ _).eq hstop⟩

end RelativeInterval

namespace NamedFilter

def places (n : NamedFilter) : List (String × Option Json) :=
  [("filter", n.filter.map Filter.encode), ("name", some (.string n.name))]

theorem encode_eq (n : NamedFilter) : n.encode = .object (filled n.places) := by
  rw [encode, ifSome_eq, filled_some, ← filled_append]
  rfl

variable {n n' : NamedFilter}

theorem orderly (n : NamedFilter) : Orderly n.places := by
  refine .of (show Sound.names ["filter", "name"] = true by decide) ?_
  simp only [places, List.forall_mem_cons]
  exact ⟨solid_optional fun f _ => f.solid, solid_some (solid_string _), List.forall_mem_nil _⟩

theorem solid (n : NamedFilter) : Solid n.encode := by
  rw [encode_eq]
  exact n.orderly.object_solid

theorem told (h : ∀ f ∈ n.filter, ∀ i ∈ f.windows, i.Dated)
    (h' : ∀ f ∈ n'.filter, ∀ i ∈ f.windows, i.Dated) : Told encode settled n n' := by
  intro hsettles hsettles' heq
  rw [encode_eq] at hsettles hsettles'
  rw [encode_eq, encode_eq] at heq
  have hagree := n.orderly.agree n'.orderly rfl hsettles hsettles' heq
  simp only [places, List.forall₂_cons] at hagree
  obtain ⟨hfilter, hname, -⟩ := hagree
  have hfilter := told_optional
    (fun f hf f' hf' => (f.rereads (h f hf)).told (f'.rereads (h' f' hf'))) hfilter
  have hname := (told_text _ _).eq hname
  rw [settled, settled, hfilter, hname]

end NamedFilter

namespace Query

def places (q : Query) : List (String × Option Json) :=
  [("queryType", some (.string q.queryType.name)), ("dataSource", texted q.dataSource),
   ("descending", q.descending.map .bool),
   ("baseFilters", q.baseFilters.map fun p => .string p.name),
   ("testMode", q.testMode.map .bool), ("appID", q.appID.map fun u => .string u.text),
   ("filter", q.filter.map Filter.encode), ("intervals", listed Interval.encode q.intervals),
   ("relativeIntervals", listed RelativeInterval.encode q.relativeIntervals),
   ("granularity", some q.granularity.encode),
   ("aggregations", listed Aggregator.encode q.aggregations),
   ("postAggregations", listed PostAggregator.encode q.postAggregations),
   ("limit", q.limit.map ofInt), ("context", q.context.map Context.encode),
   ("threshold", q.threshold.map ofInt), ("metric", q.metric.map Metric.encode),
   ("dimension", q.dimension.map Dimension.encode),
   ("dimensions", listed Dimension.encode q.dimensions),
   ("steps", listed Filter.encode q.steps), ("stepNames", listed .string q.stepNames),
   ("sample1", q.sample1.map NamedFilter.encode), ("sample2", q.sample2.map NamedFilter.encode),
   ("successCriterion", q.successCriterion.map NamedFilter.encode)]

theorem encode_eq_places (q : Query) : q.encode = .object (filled q.places) := by
  rw [encode, filled_some "granularity", ← List.singleton_append, filled_some "queryType"]
  simp only [ifSome_eq, ifAny_eq, ifText_eq, ← filled_append, List.cons_append, List.nil_append,
    places]

section Places

variable {q q' : Query}

theorem Spellable.orderly (h : q.Spellable) : Orderly q.places := by
  refine .of (show Sound.names ["queryType", "dataSource", "descending", "baseFilters", "testMode",
    "appID", "filter", "intervals", "relativeIntervals", "granularity", "aggregations",
    "postAggregations", "limit", "context", "threshold", "metric", "dimension", "dimensions",
    "steps", "stepNames", "sample1", "sample2", "successCriterion"] = true by decide) ?_
  simp only [places, List.forall_mem_cons]
  exact ⟨solid_some (solid_string _), solid_texted _, solid_optional fun b _ => solid_bool b,
    solid_optional fun p _ => solid_string _, solid_optional fun b _ => solid_bool b,
    solid_optional fun u _ => solid_string _, solid_optional fun f _ => f.solid,
    solid_listed fun _ _ i _ => solid_string _,
    solid_listed fun _ _ r _ => r.orderly.object_solid, solid_some (solid_string _),
    solid_listed fun as has a ha => a.solid (h.aggregations as has a ha),
    solid_listed fun ps hps p hp => (p.rereads (h.postAggregations ps hps p hp)).solid,
    solid_optional fun n _ => solid_ofInt n,
    solid_optional fun c hc => (Context.codes (h.context c hc)).solid,
    solid_optional fun n _ => solid_ofInt n, solid_optional fun m _ => m.rereads.solid,
    solid_optional fun d hd => (Dimension.rereads (h.dimension d hd)).solid,
    solid_listed fun ds hds d hd => (Dimension.rereads (h.dimensions ds hds d hd)).solid,
    solid_listed fun _ _ f _ => f.solid, solid_listed fun _ _ s _ => solid_string s,
    solid_optional fun n _ => n.solid, solid_optional fun n _ => n.solid,
    solid_optional fun n _ => n.solid, List.forall_mem_nil _⟩

theorem Spellable.proper (h : q.Spellable) : q.encode.Proper := by
  rw [encode_eq_places]
  exact h.orderly.object_solid.proper

theorem Written.orderly (h : q.Written) : Orderly q.places :=
  h.toFits.spellable.orderly

theorem equal_iff : q.equal q' = true ↔ ∃ text, q.canonical = .ok text ∧ q'.canonical = .ok text := by
  unfold equal
  constructor
  · intro h
    split at h
    · rename_i s t hs ht
      rw [of_decide_eq_true h] at hs
      exact ⟨t, hs, ht⟩
    · cases h
  · rintro ⟨text, htext, htext'⟩
    simp only [htext, htext', decide_true]

/-- Queries with the same canonical form agree in every place. -/
theorem Written.agree (h : q.Written) (h' : q'.Written) (hequal : q.equal q' = true) :
    List.Forall₂ (fun p p' => Agree p.2 p'.2) q.places q'.places := by
  obtain ⟨text, htext, htext'⟩ := equal_iff.1 hequal
  rw [canonical, encode_eq_places] at htext htext'
  obtain ⟨-, hsettles, hwrite⟩ := canonical_eq_ok.1 htext
  obtain ⟨-, hsettles', hwrite'⟩ := canonical_eq_ok.1 htext'
  refine h.orderly.agree h'.orderly rfl hsettles hsettles' ?_
  exact eq_of_writePlain_eq (h.orderly.object_solid.spelled_settled hsettles)
    (h'.orderly.object_solid.spelled_settled hsettles') (hwrite.symm.trans hwrite')

/-- What the written form keeps of a query is what its canonical form tells. -/
theorem Written.settled_eq (h : q.Written) (h' : q'.Written) (hequal : q.equal q' = true) :
    q.settled = q'.settled := by
  have hagree := h.agree h' hequal
  simp only [places, List.forall₂_cons] at hagree
  obtain ⟨htype, hsource, hdescending, hpolicy, htest, happ, hfilter, hintervals, hrelative,
    hgranularity, haggregations, hpost, hlimit, hcontext, hthreshold, hmetric, hdimension,
    hdimensions, hsteps, hnames, hsample1, hsample2, hsuccess, -⟩ := hagree
  have hflag {v v' : Option Bool} (hv : Agree (v.map .bool) (v'.map .bool)) : v = v' := by
    simpa using told_optional (fun b _ b' _ => told_bool b b') hv
  have hint {v v' : Option Int} (hv : Agree (v.map ofInt) (v'.map ofInt)) : v = v' := by
    simpa using told_optional (fun n _ n' _ => told_ofInt n n') hv
  have hpolicy : q.baseFilters = q'.baseFilters := by
    simpa using told_optional (fun p _ p' _ => Policy.told p p') hpolicy
  have happ : q.appID = q'.appID := by
    simpa using told_optional (fun u _ u' _ => Uuid.told u u') happ
  have hrelative : present q.relativeIntervals = present q'.relativeIntervals := by
    simpa using told_listed (fun _ _ r _ _ _ r' _ => RelativeInterval.told r r') hrelative
  have hknown : Told Granularity.encode some q.granularity q'.granularity :=
    (Granularity.codes h.granularity).told (Granularity.codes h'.granularity)
  simp only [settled, Query.mk.injEq]
  refine ⟨(QueryType.told _ _).eq htype, told_texted hsource, hflag hdescending, hpolicy,
    hflag htest, happ, ?_, ?_, hrelative,
    Option.some.inj (hknown.eq hgranularity), ?_, ?_, hint hlimit, ?_, hint hthreshold,
    ?_, ?_, ?_, ?_, ?_, ?_, ?_, ?_⟩
  · exact told_optional (fun f hf f' hf' =>
      (h.filter_rereads f hf).told (h'.filter_rereads f' hf')) hfilter
  · exact told_listed (fun is his i hi is' his' i' hi' =>
      (Interval.codes (h.intervals is his i hi)).told
        (Interval.codes (h'.intervals is' his' i' hi'))) hintervals
  · exact told_listed (fun as has a ha as' has' a' ha' =>
      (h.aggregation_rereads as has a ha).told (h'.aggregation_rereads as' has' a' ha'))
      haggregations
  · exact told_listed (fun ps hps p hp ps' hps' p' hp' =>
      (h.postAggregation_rereads ps hps p hp).told (h'.postAggregation_rereads ps' hps' p' hp'))
      hpost
  · exact told_optional (fun c hc c' hc' =>
      (Context.codes (h.context c hc)).told (Context.codes (h'.context c' hc'))) hcontext
  · exact told_optional (fun m _ m' _ => m.rereads.told m'.rereads) hmetric
  · exact told_optional (fun d hd d' hd' =>
      (h.dimension_rereads d hd).told (h'.dimension_rereads d' hd')) hdimension
  · exact told_listed (fun ds hds d hd ds' hds' d' hd' =>
      (h.dimensions_rereads ds hds d hd).told (h'.dimensions_rereads ds' hds' d' hd')) hdimensions
  · exact told_listed (fun fs hfs f hf fs' hfs' f' hf' =>
      (f.rereads (h.steps fs hfs f hf)).told (f'.rereads (h'.steps fs' hfs' f' hf'))) hsteps
  · exact told_listed (fun _ _ s _ _ _ s' _ => told_text s s') hnames
  · exact told_optional (fun n hn n' hn' =>
      NamedFilter.told (h.sample1 n hn) (h'.sample1 n' hn')) hsample1
  · exact told_optional (fun n hn n' hn' =>
      NamedFilter.told (h.sample2 n hn) (h'.sample2 n' hn')) hsample2
  · exact told_optional (fun n hn n' hn' =>
      NamedFilter.told (h.successCriterion n hn) (h'.successCriterion n' hn')) hsuccess

theorem Written.steady (h : q.Written) (hsettles : q.encode.Settles) : q.Steady := by
  rw [encode_eq_places] at hsettles
  have hplaces := h.orderly.settles hsettles
  refine ⟨fun d hd => ?_, fun ds hds d hd => ?_⟩
  · refine .of_alike (h.dimension_rereads d hd).alike ?_
    refine hplaces ("dimension", q.dimension.map Dimension.encode) (by simp [places]) _ ?_
    exact Option.map_eq_some_iff.2 ⟨d, hd, rfl⟩
  · refine .of_alike (h.dimensions_rereads ds hds d hd).alike ?_
    have hlist := hplaces ("dimensions", listed Dimension.encode q.dimensions) (by simp [places])
    obtain ⟨d', ds, rfl⟩ := List.exists_cons_of_ne_nil (List.ne_nil_of_mem hd)
    rw [show q.dimensions = some (d' :: ds) from hds] at hlist
    exact settles_of_mem_map (hlist _ rfl) d hd

end Places

end Query

end TenantQuery
