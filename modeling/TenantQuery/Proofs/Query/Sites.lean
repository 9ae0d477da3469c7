import TenantQuery.Proofs.Json.Fault
import TenantQuery.Proofs.PostAggregator.Codec

namespace TenantQuery

namespace Outcome

variable {ε ε' α β : Type}

/-- Whether a computation succeeds, and how it fails if not. -/
def verdict (x : Except ε α) : Except ε Unit :=
  x.map fun _ => ()

@[simp] theorem verdict_ok (a : α) : verdict (.ok a : Except ε α) = .ok () := rfl

@[simp] theorem verdict_map (x : Except ε α) (f : α → β) : verdict (x.map f) = verdict x := by
  cases x <;> rfl

@[simp] theorem verdict_bind (x : Except ε α) (f : α → Except ε β) :
    verdict (x >>= f) = x >>= fun a => verdict (f a) := by
  cases x <;> rfl

@[simp] theorem verdict_mapError (x : Except ε α) (f : ε → ε') :
    verdict (x.mapError f) = (verdict x).mapError f := by
  cases x <;> rfl

theorem bind_unit (x : Except ε α) : (x >>= fun _ => .ok ()) = verdict x := by
  cases x <;> rfl

@[simp] theorem verdict_bind_const (x : Except ε α) (y : Except ε β) :
    (verdict x >>= fun _ => y) = x >>= fun _ => y := by
  cases x <;> rfl

@[simp] theorem verdict_verdict (x : Except ε α) : verdict (verdict x) = verdict x :=
  verdict_map x _

theorem verdict_eq_error {x : Except ε α} {e : ε} : verdict x = .error e ↔ x = .error e := by
  cases x <;> simp [verdict]

theorem verdict_mapM (f : α → Except ε β) (as : List α) :
    verdict (as.mapM f) = forM as fun a => verdict (f a) := by
  induction as with
  | nil => rfl
  | cons a as ih =>
      rw [List.mapM_cons, List.forM_cons, ← ih]
      cases f a with
      | error e => rfl
      | ok b => cases as.mapM f <;> rfl

theorem forM_congr {f g : α → Except ε Unit} {as : List α} (h : ∀ a ∈ as, f a = g a) :
    forM as f = forM as g := by
  induction as with
  | nil => rfl
  | cons a as ih =>
      rw [List.forall_mem_cons] at h
      rw [List.forM_cons, List.forM_cons, h.1, ih h.2]

/-- A run over a list stops at the first item that fails. -/
theorem forM_eq_error {f : α → Except ε Unit} {as : List α} {e : ε} (h : forM as f = .error e) :
    ∃ before a after, as = before ++ a :: after ∧ (∀ b ∈ before, f b = .ok ()) ∧ f a = .error e := by
  induction as with
  | nil => cases h
  | cons a as ih =>
      rw [List.forM_cons] at h
      cases ha : f a with
      | error e' =>
          rw [ha] at h
          cases h
          exact ⟨[], a, as, rfl, List.forall_mem_nil _, ha⟩
      | ok u =>
          rw [ha] at h
          obtain ⟨before, b, after, rfl, hbefore, hb⟩ := ih h
          exact ⟨a :: before, b, after, rfl, List.forall_mem_cons.2 ⟨ha, hbefore⟩, hb⟩

end Outcome

open Json Outcome

inductive NodeKind where
  | filter
  | aggregator
  | postAggregator
deriving DecidableEq

/-- A place for a node: the kind of node that it is for and what stands there, if anything does. -/
structure Site where
  kind : NodeKind
  raw : Option Json

/-- Members in which other nodes stand: one, or a list of them. -/
inductive Part where
  | one (kind : NodeKind) (name : String)
  | each (kind : NodeKind) (name : String)

def Part.sites (j : Json) : Part → List Site
  | .one kind name => [⟨kind, j.lastAt name⟩]
  | .each kind name => (j.itemsAt name).map fun item => ⟨kind, some item⟩

namespace NodeKind

def name : NodeKind → String
  | .filter => "filter"
  | .aggregator => "aggregator"
  | .postAggregator => "postAggregator"

/-- The types of nodes in which other nodes stand, with their parts in the order of reading. -/
def parts : NodeKind → List (String × List Part)
  | .filter =>
    [("and", [.each .filter "fields"]), ("or", [.each .filter "fields"]),
     ("not", [.one .filter "field"])]
  | .aggregator => [("filtered", [.one .filter "filter", .one .aggregator "aggregator"])]
  | .postAggregator =>
    ExtremumKind.every.map (fun kind => (kind.name, [.each .postAggregator "fields"])) ++
    [("arithmetic", [.each .postAggregator "fields"]),
     ("thetaSketchSetOp", [.each .postAggregator "fields"]),
     ("thetaSketchEstimate", [.one .postAggregator "field"]),
     ("quantilesDoublesSketchToHistogram", [.one .postAggregator "field"]),
     ("zscore2sample",
       [.one .postAggregator "sample1Size", .one .postAggregator "successCount1",
        .one .postAggregator "sample2Size", .one .postAggregator "successCount2"]),
     ("pvalue2tailedZtest", [.one .postAggregator "zScore"])]

/-- The places for nodes in a node of a type. -/
def sites (kind : NodeKind) (type : String) (j : Json) : List Site :=
  ((kind.parts.lookup type).getD []).flatMap (Part.sites j)

theorem sites_one {kind inner : NodeKind} {type name : String}
    (h : kind.parts.lookup type = some [.one inner name]) (j : Json) :
    kind.sites type j = [⟨inner, j.lastAt name⟩] := by
  rw [sites, h]
  rfl

theorem sites_each {kind inner : NodeKind} {type name : String}
    (h : kind.parts.lookup type = some [.each inner name]) (j : Json) :
    kind.sites type j = (j.itemsAt name).map fun item => ⟨inner, some item⟩ := by
  rw [sites, h]
  exact List.flatMap_singleton _ _

/-- The type is that of some node of the kind. -/
def Knows (kind : NodeKind) (type : String) : Prop :=
  match kind with
  | .filter => ∃ f : Filter, f.typeName = type
  | .aggregator => ∃ a : Aggregator, a.typeName = type
  | .postAggregator => ∃ p : PostAggregator, p.typeName = type

end NodeKind

/-- Two readings that differ only in how the nodes inside are read. What comes before is the same,
and does not report a node. -/
def Stages {α : Type} (sites : List Site) (sub sub' : Site → Except Error Unit)
    (x x' : Except Error α) : Prop :=
  ∃ own : Except Error Unit, Quiet own ∧ Outcome.verdict x = (own >>= fun _ => forM sites sub) ∧
    Outcome.verdict x' = (own >>= fun _ => forM sites sub')

namespace Stages

variable {α τ : Type} {sites : List Site} {sub sub' : Site → Except Error Unit}

theorem quiet {x : Except Error α} (h : Quiet x) : Stages [] sub sub' x x := by
  refine ⟨Outcome.verdict x, h.map _, ?_, ?_⟩
  · cases x <;> rfl
  · cases x <;> rfl

theorem error {e : Error} (h : e.reports = []) :
    Stages sites sub sub' (.error e : Except Error α) (.error e) :=
  ⟨.error e, .error h, rfl, rfl⟩

theorem of {x x' : Except Error α} (h : Outcome.verdict x = forM sites sub)
    (h' : Outcome.verdict x' = forM sites sub') : Stages sites sub sub' x x' :=
  ⟨.ok (), .ok (), h, h'⟩

theorem bind {x : Except Error τ} {f f' : τ → Except Error α} (hx : Quiet x)
    (h : ∀ a, x = .ok a → Stages sites sub sub' (f a) (f' a)) :
    Stages sites sub sub' (x >>= f) (x >>= f') := by
  cases x with
  | error e => exact error (hx e rfl)
  | ok a => exact h a rfl

end Stages

theorem verdict_readNodes {α : Type} {inner : Option Json → Except Error α} {kind : NodeKind}
    {sub : Site → Except Error Unit} (hsub : ∀ raw, sub ⟨kind, raw⟩ = Outcome.verdict (inner raw))
    (raws : Option (List Json)) :
    Outcome.verdict (readNodes inner raws) =
      forM ((raws.getD []).map fun j => (⟨kind, some j⟩ : Site)) sub := by
  cases raws with
  | none => rfl
  | some js =>
      rw [readNodes, verdict_map, verdict_mapM, List.forM_map]
      exact forM_congr fun j _ => (hsub (some j)).symm

/-- Two readers of one form of a node, at a value. -/
def FormStages {α : Type} (kind : NodeKind) (j : Json) (sub sub' : Site → Except Error Unit)
    (f f' : String × (Json → Except Error α)) : Prop :=
  f'.1 = f.1 ∧ kind.Knows f.1 ∧ Stages (kind.sites f.1 j) sub sub' (f.2 j) (f'.2 j)

theorem FormStages.leaf {α : Type} {kind : NodeKind} {j : Json} {sub sub' : Site → Except Error Unit}
    {type : String} {read : Json → Except Error α} (hknows : kind.Knows type)
    (hparts : kind.parts.lookup type = none) (hread : Quiet (read j)) :
    FormStages kind j sub sub' (type, read) (type, read) := by
  refine ⟨rfl, hknows, ?_⟩
  rw [NodeKind.sites, hparts]
  exact .quiet hread

section Operands

variable {α β σ : Type} {kind operand : NodeKind} {inner inner' : Option Json → Except Error α}
  {sub sub' : Site → Except Error Unit} {type name : String} {fields : List (Member σ)} {j : Json}
  {start s : σ}

theorem stages_operands (hsub : ∀ raw, sub ⟨operand, raw⟩ = Outcome.verdict (inner raw))
    (hsub' : ∀ raw, sub' ⟨operand, raw⟩ = Outcome.verdict (inner' raw))
    (hparts : kind.parts.lookup type = some [.each operand name])
    {get : σ → Option (List Json)} (htracks : Tracks fields name get items?)
    (hstart : get start = none) (hread : readRecord fields start j = .ok s)
    (f : Option (List α) → β) :
    Stages (kind.sites type j) sub sub' (do return f (← readNodes inner (get s)))
      (do return f (← readNodes inner' (get s))) := by
  rw [NodeKind.sites_each hparts, ← htracks.rawItems hstart hread]
  apply Stages.of
  · simp [bind_unit, verdict_readNodes hsub]
  · simp [bind_unit, verdict_readNodes hsub']

theorem stages_operand (hsub : ∀ raw, sub ⟨operand, raw⟩ = Outcome.verdict (inner raw))
    (hsub' : ∀ raw, sub' ⟨operand, raw⟩ = Outcome.verdict (inner' raw))
    (hparts : kind.parts.lookup type = some [.one operand name])
    {get : σ → Option Json} (htracks : Tracks fields name get some)
    (hstart : get start = none) (hread : readRecord fields start j = .ok s) (f : α → β) :
    Stages (kind.sites type j) sub sub' (do return f (← inner (get s)))
      (do return f (← inner' (get s))) := by
  rw [NodeKind.sites_one hparts, ← htracks.raw hstart hread]
  apply Stages.of
  · simp [bind_unit, hsub]
  · simp [bind_unit, hsub']

end Operands

section Filters

variable {inner inner' : Option Json → Except Error Filter} {sub sub' : Site → Except Error Unit}

theorem Interval.quiet_parse (s : String) : Quiet (parse s) := by
  have hinstant (t : String) : Quiet (Instant.parse t) := by
    unfold Instant.parse
    split
    · exact .ok _
    · exact .error rfl
  simp only [parse]
  split
  · exact .error rfl
  · exact (hinstant _).bind fun _ => (hinstant _).bind fun _ => .ok _

@[simp] theorem Interval.quiet_slot : Slot.Quiet slot :=
  .list fun _ j => ((Slot.Quiet.text [] j).within _).bind quiet_parse

theorem SearchQuery.quiet_fields : ∀ f ∈ fields, f.Quiet := by
  simp [fields, optionalFlag]

theorem Predicate.quiet_forms (j : Json) : ∀ f ∈ forms, Quiet (f.2 j) := by
  have hquery : Slot.Quiet (Slot.record SearchQuery.fields {}) := .record SearchQuery.quiet_fields _
  simp only [forms, List.forall_mem_cons, List.not_mem_nil, false_imp_iff, implies_true, and_true]
  refine ⟨?_, ?_, ?_, ?_, ?_, ?_, ?_, ?_⟩ <;> refine (quiet_readRecord ?_ _ j).map _
  · simp [Selector.fields]
  · simp [ColumnComparison.fields, texts]
  · simp [Regex.fields]
  · simp [Search.fields, hquery]
  · simp [Membership.fields, texts]
  · simp [Like.fields, optionalText]
  · simp [Bound.fields, optionalText, optionalFlag]
  · simp [During.fields]

theorem Predicate.exists_typeName : ∀ f ∈ forms, ∃ p : Predicate, p.typeName = f.1 := by
  simp only [forms, List.forall_mem_cons, List.not_mem_nil, false_imp_iff, implies_true, and_true]
  exact ⟨⟨.selector {}, rfl⟩, ⟨.columnComparison {}, rfl⟩, ⟨.regex {}, rfl⟩, ⟨.search {}, rfl⟩,
    ⟨.membership {}, rfl⟩, ⟨.like {}, rfl⟩, ⟨.bound {}, rfl⟩, ⟨.during {}, rfl⟩⟩

theorem Predicate.parts_typeName (p : Predicate) : NodeKind.filter.parts.lookup p.typeName = none := by
  cases p <;> rfl

theorem Filter.tracks_operands : Tracks operandsFields "fields" id items? :=
  ⟨soundNode_operands.toSound, by decide, by simp [operandsFields]⟩

theorem Filter.tracks_operand : Tracks operandFields "field" id some :=
  ⟨soundNode_operand.toSound, by decide, by simp [operandFields]⟩

theorem Filter.forms_stages (hsub : ∀ raw, sub ⟨.filter, raw⟩ = Outcome.verdict (inner raw))
    (hsub' : ∀ raw, sub' ⟨.filter, raw⟩ = Outcome.verdict (inner' raw)) (j : Json) :
    List.Forall₂ (FormStages .filter j sub sub') (forms inner) (forms inner') := by
  have hjunction (op : Junction) : Stages (NodeKind.filter.sites op.typeName j) sub sub'
      (do return Filter.junction op (← readNodes inner (← readRecord operandsFields none j)))
      (do return Filter.junction op (← readNodes inner' (← readRecord operandsFields none j))) := by
    refine .bind (quiet_readRecord (by simp [operandsFields]) _ j) fun raws hraws => ?_
    exact stages_operands hsub hsub' (by cases op <;> rfl) tracks_operands rfl hraws _
  refine List.rel_append ?_ (.cons ?_ (.cons ?_ (.cons ?_ (.cons ?_ (.cons ?_ .nil)))))
  · rw [List.forall₂_map_left_iff, List.forall₂_map_right_iff, List.forall₂_same]
    intro f hf
    obtain ⟨p, hp⟩ := Predicate.exists_typeName f hf
    refine .leaf ⟨.test p, hp⟩ ?_ ((Predicate.quiet_forms j f hf).map _)
    rw [← hp]
    exact p.parts_typeName
  · exact ⟨rfl, ⟨.junction .all none, rfl⟩, hjunction .all⟩
  · exact ⟨rfl, ⟨.junction .any none, rfl⟩, hjunction .any⟩
  · refine ⟨rfl, ⟨.not (.constant true), rfl⟩, ?_⟩
    refine .bind (quiet_readRecord (by simp [operandFields]) _ j) fun raw hraw => ?_
    exact stages_operand hsub hsub' rfl tracks_operand rfl hraw _
  · exact .leaf ⟨.constant true, rfl⟩ rfl ((quiet_readRecord (List.forall_mem_nil _) _ j).map _)
  · exact .leaf ⟨.constant false, rfl⟩ rfl ((quiet_readRecord (List.forall_mem_nil _) _ j).map _)

end Filters

namespace Aggregator

variable {inner inner' : Option Json → Except Error Aggregator} {sub sub' : Site → Except Error Unit}

theorem quiet_binFields {σ : Type} (get : σ → Bins) (set : σ → Bins → σ) :
    ∀ f ∈ binFields.map (Member.lift get set), f.Quiet := by
  simp [binFields, doubles, optionalInt, Member.lift_of]

theorem quiet_columnFields : ∀ f ∈ columnFields, f.Quiet := by
  simp [columnFields]

theorem tracks_filter : Tracks filteredFields "filter" (·.filter) some :=
  ⟨soundNode_filtered.toSound, by decide, by simp [filteredFields]⟩

theorem tracks_inner : Tracks filteredFields "aggregator" (·.inner) some :=
  ⟨soundNode_filtered.toSound, by decide, by simp [filteredFields]⟩

theorem forms_stages (hfilter : ∀ raw, sub ⟨.filter, raw⟩ = Outcome.verdict (Filter.read raw))
    (hfilter' : ∀ raw, sub' ⟨.filter, raw⟩ = Outcome.verdict (Filter.read raw))
    (hsub : ∀ raw, sub ⟨.aggregator, raw⟩ = Outcome.verdict (inner raw))
    (hsub' : ∀ raw, sub' ⟨.aggregator, raw⟩ = Outcome.verdict (inner' raw)) (j : Json) :
    List.Forall₂ (FormStages .aggregator j sub sub') (forms inner) (forms inner') := by
  refine List.rel_append ?_ (.cons ?_ (.cons ?_ (.cons ?_ (.cons ?_ (.cons ?_ (.cons ?_ (.cons ?_
    (.cons ?_ (.cons ?_ .nil)))))))))
  · rw [List.forall₂_map_left_iff, List.forall₂_map_right_iff, List.forall₂_same]
    intro kind _
    exact .leaf ⟨.column kind {}, rfl⟩ (by cases kind <;> rfl)
      ((quiet_readRecord quiet_columnFields _ j).map _)
  · exact .leaf ⟨.count "", rfl⟩ rfl ((quiet_readRecord (by simp [nameFields]) _ j).map _)
  · refine .leaf ⟨.thetaSketch {}, rfl⟩ rfl ((quiet_readRecord ?_ _ j).map _)
    simp [thetaSketchFields, optionalFlag, optionalInt]
  · refine .leaf ⟨.hyperUnique {}, rfl⟩ rfl ((quiet_readRecord ?_ _ j).map _)
    simp [hyperUniqueFields, optionalFlag]
  · refine .leaf ⟨.cardinality {}, rfl⟩ rfl ((quiet_readRecord ?_ _ j).map _)
    simp [cardinalityFields, texts, optionalFlag]
  · refine .leaf ⟨.quantilesSketch {}, rfl⟩ rfl ((quiet_readRecord ?_ _ j).map _)
    simp [quantilesSketchFields, optionalFlag, optionalInt]
  · refine ⟨rfl, ⟨.filtered default default none, rfl⟩, ?_⟩
    refine .bind (quiet_readRecord (by simp [filteredFields, optionalText]) _ j) fun wire hwire => ?_
    have hsites : NodeKind.aggregator.sites "filtered" j =
        [⟨.filter, wire.filter⟩, ⟨.aggregator, wire.inner⟩] := by
      rw [tracks_filter.raw rfl hwire, tracks_inner.raw rfl hwire]
      rfl
    rw [hsites]
    exact .of (by simp [bind_unit, hfilter, hsub]) (by simp [bind_unit, hfilter', hsub'])
  · refine .leaf ⟨.userCount none, rfl⟩ rfl ((quiet_readRecord ?_ _ j).map _)
    simp [optionalNameFields, optionalText]
  · refine .leaf ⟨.eventCount none, rfl⟩ rfl ((quiet_readRecord ?_ _ j).map _)
    simp [optionalNameFields, optionalText]
  · refine .leaf ⟨.histogram {}, rfl⟩ rfl ((quiet_readRecord ?_ _ j).map _)
    exact List.forall_mem_cons.2 ⟨by simp [optionalText], quiet_binFields _ _⟩

end Aggregator

namespace PostAggregator

variable {inner inner' : Inner} {sub sub' : Site → Except Error Unit}

theorem quiet_accessFields : ∀ f ∈ accessFields, f.Quiet := by
  simp [accessFields, optionalText]

theorem quiet_estimateFields : ∀ f ∈ estimateFields, f.Quiet := by
  simp [estimateFields]

theorem tracks_arithmetic : Tracks arithmeticFields "fields" (·.operands) items? :=
  ⟨soundNode_arithmetic.toSound, by decide, by simp [arithmeticFields]⟩

theorem tracks_extremum : Tracks extremumFields "fields" (·.operands) items? :=
  ⟨soundNode_extremum.toSound, by decide, by simp [extremumFields]⟩

theorem tracks_setOp : Tracks setOpFields "fields" (·.operands) items? :=
  ⟨soundNode_setOp.toSound, by decide, by simp [setOpFields]⟩

theorem tracks_estimate : Tracks estimateFields "field" (·.operand) some :=
  ⟨soundNode_estimate.toSound, by decide, by simp [estimateFields]⟩

theorem tracks_histogram : Tracks histogramFields "field" (·.operand) some :=
  ⟨soundNode_histogram.toSound, by decide,
    by simp [histogramFields, estimateFields, Aggregator.binFields, Member.lift_of]⟩

theorem tracks_samples : Tracks samplesFields "sample1Size" (·.size1) some ∧
    Tracks samplesFields "successCount1" (·.success1) some ∧
    Tracks samplesFields "sample2Size" (·.size2) some ∧
    Tracks samplesFields "successCount2" (·.success2) some := by
  refine ⟨⟨soundNode_samples.toSound, by decide, ?_⟩, ⟨soundNode_samples.toSound, by decide, ?_⟩,
    ⟨soundNode_samples.toSound, by decide, ?_⟩, ⟨soundNode_samples.toSound, by decide, ?_⟩⟩ <;>
    simp [samplesFields]

theorem tracks_pValue : Tracks pValueFields "zScore" (·.2) some :=
  ⟨soundNode_pValue.toSound, by decide, by simp [pValueFields]⟩

section Stages

variable (hsub : ∀ raw, sub ⟨.postAggregator, raw⟩ = Outcome.verdict (inner raw))
  (hsub' : ∀ raw, sub' ⟨.postAggregator, raw⟩ = Outcome.verdict (inner' raw))

include hsub hsub'

theorem readArithmetic_stages (j : Json) :
    Stages (NodeKind.postAggregator.sites "arithmetic" j) sub sub' (readArithmetic inner j)
      (readArithmetic inner' j) := by
  refine .bind (quiet_readRecord ?_ _ j) fun wire hwire => ?_
  · simp [arithmeticFields, optionalText]
  · split
    · exact .error rfl
    · exact stages_operands hsub hsub' rfl tracks_arithmetic rfl hwire _

theorem readSetOp_stages (j : Json) :
    Stages (NodeKind.postAggregator.sites "thetaSketchSetOp" j) sub sub' (readSetOp inner j)
      (readSetOp inner' j) := by
  refine .bind (quiet_readRecord ?_ _ j) fun wire hwire => ?_
  · simp [setOpFields, optionalText, optionalInt]
  · split
    · exact .error rfl
    · exact stages_operands hsub hsub' rfl tracks_setOp rfl hwire _

theorem readSamples_stages (j : Json) :
    Stages (NodeKind.postAggregator.sites "zscore2sample" j) sub sub' (readSamples inner j)
      (readSamples inner' j) := by
  refine .bind (quiet_readRecord (by simp [samplesFields]) _ j) fun wire hwire => ?_
  obtain ⟨hsize1, hsuccess1, hsize2, hsuccess2⟩ := tracks_samples
  have hsites : NodeKind.postAggregator.sites "zscore2sample" j =
      [⟨.postAggregator, wire.size1⟩, ⟨.postAggregator, wire.success1⟩,
       ⟨.postAggregator, wire.size2⟩, ⟨.postAggregator, wire.success2⟩] := by
    rw [hsize1.raw rfl hwire, hsuccess1.raw rfl hwire, hsize2.raw rfl hwire, hsuccess2.raw rfl hwire]
    rfl
  rw [hsites]
  exact .of (by simp [bind_unit, hsub]) (by simp [bind_unit, hsub'])

theorem forms_stages (j : Json) :
    List.Forall₂ (FormStages .postAggregator j sub sub') (forms inner) (forms inner') := by
  refine List.rel_append ?_ (.cons ?_ (.cons ?_ (.cons ?_ (.cons ?_ (.cons ?_ (.cons ?_ (.cons ?_
    (.cons ?_ (.cons ?_ (.cons ?_ (.cons ?_ .nil)))))))))))
  · rw [List.forall₂_map_left_iff, List.forall₂_map_right_iff, List.forall₂_same]
    intro kind _
    refine ⟨rfl, ⟨.extremum kind "" none, rfl⟩, ?_⟩
    refine .bind (quiet_readRecord (by simp [extremumFields]) _ j) fun wire hwire => ?_
    exact stages_operands hsub hsub' (by cases kind <;> rfl) tracks_extremum rfl hwire _
  · exact ⟨rfl, ⟨.arithmetic "" .add none none, rfl⟩, readArithmetic_stages hsub hsub' j⟩
  · exact .leaf ⟨.fieldAccess none "", rfl⟩ rfl ((quiet_readRecord quiet_accessFields _ j).map _)
  · exact .leaf ⟨.finalizingFieldAccess none "", rfl⟩ rfl
      ((quiet_readRecord quiet_accessFields _ j).map _)
  · refine .leaf ⟨.constant "" .zero, rfl⟩ rfl ((quiet_readRecord ?_ _ j).map _)
    simp [constantFields]
  · refine .leaf ⟨.expression "" "" none, rfl⟩ rfl ((quiet_readRecord ?_ _ j).map _)
    simp [expressionFields, optionalText]
  · exact .leaf ⟨.hyperUniqueCardinality "" "", rfl⟩ rfl
      ((quiet_readRecord Aggregator.quiet_columnFields _ j).map _)
  · refine ⟨rfl, ⟨.sketchEstimate "" default, rfl⟩, ?_⟩
    refine .bind (quiet_readRecord quiet_estimateFields _ j) fun wire hwire => ?_
    exact stages_operand hsub hsub' rfl tracks_estimate rfl hwire _
  · exact ⟨rfl, ⟨.sketchSetOp none .union none none, rfl⟩, readSetOp_stages hsub hsub' j⟩
  · refine ⟨rfl, ⟨.sketchHistogram "" default {}, rfl⟩, ?_⟩
    refine .bind (quiet_readRecord ?_ _ j) fun wire hwire => ?_
    · exact List.forall_mem_append.2 ⟨quiet_estimateFields, Aggregator.quiet_binFields _ _⟩
    · exact stages_operand hsub hsub' rfl tracks_histogram rfl hwire fun p =>
        sketchHistogram wire.name p wire.bins
  · exact ⟨rfl, ⟨.zScore "" default default default default, rfl⟩, readSamples_stages hsub hsub' j⟩
  · refine ⟨rfl, ⟨.pValue "" default, rfl⟩, ?_⟩
    refine .bind (quiet_readRecord (by simp [pValueFields]) _ j) fun wire hwire => ?_
    exact stages_operand hsub hsub' rfl tracks_pValue rfl hwire _

end Stages

end PostAggregator

end TenantQuery
