import TenantQuery.Filter.Basic
import TenantQuery.Proofs.Calendar.Interval
import TenantQuery.Proofs.Json.Node

namespace TenantQuery

open Json Outcome

namespace Predicate

/-- The time windows that a test speaks of. -/
def windows : Predicate → List Interval
  | .during p => p.intervals.getD []
  | _ => []

/-- What the written form keeps of a test. -/
def settled : Predicate → Predicate
  | .selector p => .selector ⟨Text.normal p.dimension, Text.normal p.value⟩
  | .columnComparison p => .columnComparison ⟨p.dimensions.map (·.map Text.normal)⟩
  | .regex p => .regex ⟨Text.normal p.dimension, Text.normal p.pattern⟩
  | .search p =>
    .search ⟨Text.normal p.dimension,
      ⟨Text.normal p.query.type, Text.normal p.query.value, p.query.caseSensitive⟩⟩
  | .membership p =>
    .membership ⟨Text.normal p.dimension, p.values.map (·.map Text.normal)⟩
  | .like p => .like ⟨Text.normal p.dimension, Text.normal p.pattern, p.escape.map Text.normal⟩
  | .bound p =>
    .bound ⟨Text.normal p.dimension, p.lower.map Text.normal, p.upper.map Text.normal,
      p.lowerStrict, p.upperStrict, p.ordering.map Text.normal⟩
  | .during p =>
    .during ⟨Text.normal p.dimension, p.intervals.map (·.map Interval.settled)⟩

theorem normal_typeName (p : Predicate) : Text.normal p.typeName = p.typeName := by
  cases p <;>
    · rw [typeName]
      exact Text.normal_eq_self (by decide)

theorem typeName_settled (p : Predicate) : p.settled.typeName = p.typeName := by
  cases p <;> rfl

theorem soundNode_selector : SoundNode Selector.fields :=
  .of (by decide) (by simp [Selector.fields, Member.independent_of])

theorem soundNode_columnComparison : SoundNode ColumnComparison.fields :=
  .of (by decide) (by simp [ColumnComparison.fields])

theorem soundNode_regex : SoundNode Regex.fields :=
  .of (by decide) (by simp [Regex.fields, Member.independent_of])

theorem sound_searchQuery : Sound SearchQuery.fields :=
  .of (by decide) (by simp [SearchQuery.fields, Member.independent_of])

theorem soundNode_search : SoundNode Search.fields :=
  .of (by decide) (by simp [Search.fields, Member.independent_of])

theorem soundNode_membership : SoundNode Membership.fields :=
  .of (by decide) (by simp [Membership.fields, Member.independent_of])

theorem soundNode_like : SoundNode Like.fields :=
  .of (by decide) (by simp [Like.fields, Member.independent_of])

theorem soundNode_bound : SoundNode Bound.fields :=
  .of (by decide) (by simp [Bound.fields, Member.independent_of])

theorem soundNode_during : SoundNode During.fields :=
  .of (by decide) (by simp [During.fields, Member.independent_of])

theorem codes_searchQuery (q : SearchQuery) :
    Codes
      (fun q : SearchQuery => .object ([("type", .string q.type), ("value", .string q.value)] ++
        ifSome "caseSensitive" .bool q.caseSensitive))
      (Slot.record SearchQuery.fields {} []) q
      ⟨Text.normal q.type, Text.normal q.value, q.caseSensitive⟩
      ⟨Text.normal q.type, Text.normal q.value, q.caseSensitive⟩ :=
  Writes.codes sound_searchQuery rfl rfl
    (.of (codes_text _) (.of (codes_text _) (.last (.ifSame (fun b _ => codes_flag b) rfl .nil))))

/-- Whatever test it is, its form takes its members and gives it back. -/
theorem exists_form (p : Predicate) (hdated : ∀ i ∈ p.windows, i.Dated) :
    ∃ (σ : Type) (fields : List (Member σ)) (start w : σ) (build : σ → Predicate),
      SoundNode fields ∧ Writes fields start p.members p.settled.members w ∧ build w = p.settled ∧
      forms.lookup p.typeName = some fun j => (readRecord fields start j).map build := by
  cases p with
  | selector p =>
      exact ⟨_, _, {}, _, .selector, soundNode_selector,
        .of (codes_text _) (.of (codes_text _) .nil), rfl, rfl⟩
  | columnComparison p =>
      exact ⟨_, _, {}, _, .columnComparison, soundNode_columnComparison,
        .listOrNull (fun _ _ s _ => codes_text s) rfl .nil, rfl, rfl⟩
  | regex p =>
      exact ⟨_, _, {}, _, .regex, soundNode_regex,
        .of (codes_text _) (.of (codes_text _) .nil), rfl, rfl⟩
  | search p =>
      have hquery := codes_searchQuery p.query
      exact ⟨_, _, {}, _, .search, soundNode_search,
        .of (codes_text _) (.cons hquery.alike hquery.notNull
          (fun hsettles => by simp only [Member.of, hquery.reads hsettles, map_ok]) .nil), rfl, rfl⟩
  | membership p =>
      exact ⟨_, _, {}, _, .membership, soundNode_membership,
        .of (codes_text _) (.listOrNull (fun _ _ s _ => codes_text s) rfl .nil), rfl, rfl⟩
  | like p =>
      exact ⟨_, _, {}, _, .like, soundNode_like,
        .of (codes_text _) (.of (codes_text _)
          (.last (.ifSome (fun s _ => codes_text s) rfl .nil))), rfl, rfl⟩
  | bound p =>
      refine ⟨_, _, {}, _, .bound, soundNode_bound, ?_, rfl, rfl⟩
      simp only [members, settled, List.append_assoc]
      exact .of (codes_text _) (.ifSome (fun s _ => codes_text s) rfl
        (.ifSome (fun s _ => codes_text s) rfl (.ifSame (fun b _ => codes_flag b) rfl
        (.ifSame (fun b _ => codes_flag b) rfl (.last (.ifSome (fun s _ => codes_text s) rfl .nil))))))
  | during p =>
      refine ⟨_, _, {}, _, .during, soundNode_during, .of (codes_text _)
        (.listOrNull (fun is his i hi => Interval.codes (hdated i ?_)) rfl .nil), rfl, rfl⟩
      rw [windows, show p.intervals = some is from his]
      exact hi

end Predicate

namespace Filter

mutual

/-- Induction over filters: junctions and negations after their operands. -/
@[elab_as_elim]
theorem induction {P : Filter → Prop} (test : ∀ p, P (.test p)) (constant : ∀ b, P (.constant b))
    (not : ∀ f, P f → P (.not f)) (absent : ∀ op, P (.junction op none))
    (junction : ∀ op fs, (∀ f ∈ fs, P f) → P (.junction op (some fs))) : (f : Filter) → P f
  | .test p => test p
  | .constant b => constant b
  | .not f => not f (induction test constant not absent junction f)
  | .junction op none => absent op
  | .junction op (some fs) => junction op fs (induction_all test constant not absent junction fs)

theorem induction_all {P : Filter → Prop} (test : ∀ p, P (.test p))
    (constant : ∀ b, P (.constant b)) (not : ∀ f, P f → P (.not f))
    (absent : ∀ op, P (.junction op none))
    (junction : ∀ op fs, (∀ f ∈ fs, P f) → P (.junction op (some fs))) :
    (fs : List Filter) → ∀ f ∈ fs, P f
  | [] => by simp
  | f :: fs => by
      have hf := induction test constant not absent junction f
      have hfs := induction_all test constant not absent junction fs
      exact List.forall_mem_cons.2 ⟨hf, hfs⟩

end

mutual

/-- The time windows that a filter speaks of. -/
def windows : Filter → List Interval
  | .test p => p.windows
  | .junction _ none => []
  | .junction _ (some fs) => windowsAll fs
  | .not f => windows f
  | .constant _ => []

def windowsAll : List Filter → List Interval
  | [] => []
  | f :: fs => windows f ++ windowsAll fs

end

mutual

/-- What the written form keeps of a filter. -/
def settled : Filter → Filter
  | .test p => .test p.settled
  | .junction op none => .junction op none
  | .junction op (some fs) => .junction op (some (settledAll fs))
  | .not f => .not (settled f)
  | .constant b => .constant b

def settledAll : List Filter → List Filter
  | [] => []
  | f :: fs => settled f :: settledAll fs

end

theorem windowsAll_eq (fs : List Filter) : windowsAll fs = fs.flatMap windows := by
  induction fs with
  | nil => rfl
  | cons f fs ih => rw [windowsAll, ih, List.flatMap_cons]

theorem settledAll_eq (fs : List Filter) : settledAll fs = fs.map settled := by
  induction fs with
  | nil => rfl
  | cons f fs ih => rw [settledAll, ih, List.map_cons]

theorem encodeAll_eq (fs : List Filter) : encodeAll fs = fs.map encode := by
  induction fs with
  | nil => rfl
  | cons f fs ih => rw [encodeAll, ih, List.map_cons]

theorem soundNode_operands : SoundNode operandsFields :=
  .of (by decide) (by simp [operandsFields])

theorem soundNode_operand : SoundNode operandFields :=
  .of (by decide) (by simp [operandFields])

theorem readWithin_succ (fuel : Nat) (members : List (String × Json)) :
    readWithin (fuel + 1) (some (.object members)) =
      readNode "filter" (forms (readWithin fuel)) (some (.object members)) :=
  rfl

/-- The forms of tests come first among those of filters. -/
theorem lookup_predicate {inner : Option Json → Except Error Filter} {type : String}
    {read : Json → Except Error Predicate} (h : Predicate.forms.lookup type = some read) :
    (forms inner).lookup type = some fun j => (read j).map .test := by
  have hmap (fs : Forms Predicate) (rest : Forms Filter) (hfs : fs.lookup type = some read) :
      (fs.map (fun f => (f.1, fun j => (f.2 j).map Filter.test)) ++ rest).lookup type =
        some fun j => (read j).map .test := by
    induction fs with
    | nil => cases hfs
    | cons f fs ih =>
        rw [List.lookup_cons] at hfs
        rw [List.map_cons, List.cons_append, List.lookup_cons]
        split at hfs
        · cases hfs
          simp_all
        · simp_all
  exact hmap _ _ h

theorem writes_operands {fs : List Filter} {settle : Filter → Filter}
    (h : ∀ f ∈ fs, Rereads encode readWithin f (settle f)) :
    Writes operandsFields none [("fields", .array (fs.map encode))]
      [("fields", .array ((fs.map settle).map encode))]
      (some (fs.map fun f => f.encode.settled)) :=
  Writes.listOrNull (v := some fs)
    (fun _ hfs f hf => by
      cases hfs
      exact codes_raw (h f hf).alike (h f hf).notNull) rfl .nil

theorem rereads (f : Filter) (hdated : ∀ i ∈ f.windows, i.Dated) :
    Rereads encode readWithin f f.settled := by
  induction f using Filter.induction with
  | test p =>
      obtain ⟨σ, fields, start, w, build, hsound, hw, hbuild, hlookup⟩ := p.exists_form hdated
      refine .of hsound start readWithin_succ rfl ?_ p.normal_typeName hw fun fuel => ?_
      · rw [settled, encode, Predicate.encode, p.typeName_settled]
      · refine ⟨_, lookup_predicate hlookup, fun _ j hj => ?_⟩
        simp only [hj, map_ok, hbuild, settled]
  | constant b =>
      cases b with
      | true =>
          exact .of soundNode_nil () readWithin_succ rfl rfl (Text.normal_eq_self (by decide)) .nil
            fun fuel => ⟨_, rfl, fun _ j hj => by rw [hj]; rfl⟩
      | false =>
          exact .of soundNode_nil () readWithin_succ rfl rfl (Text.normal_eq_self (by decide)) .nil
            fun fuel => ⟨_, rfl, fun _ j hj => by rw [hj]; rfl⟩
  | not f ih =>
      have hf := ih hdated
      refine .of soundNode_operand none readWithin_succ rfl rfl
        (Text.normal_eq_self (by decide)) (.raw hf.alike hf.notNull .nil) fun fuel => ⟨_, rfl, fun hms j hj => ?_⟩
      obtain ⟨hsettles, hdepth⟩ := hms _ (List.mem_singleton_self _)
      rw [hj, ok_bind, hf.reads hsettles fuel hdepth]
      rfl
  | absent op =>
      cases op with
      | all =>
          exact .of soundNode_operands none readWithin_succ rfl rfl
            (Text.normal_eq_self (by decide)) (.null .nil) fun fuel => ⟨_, rfl, fun _ j hj => by rw [hj]; rfl⟩
      | any =>
          exact .of soundNode_operands none readWithin_succ rfl rfl
            (Text.normal_eq_self (by decide)) (.null .nil) fun fuel => ⟨_, rfl, fun _ j hj => by rw [hj]; rfl⟩
  | junction op fs ih =>
      have hfs : ∀ f ∈ fs, Rereads encode readWithin f f.settled := by
        intro f hf
        refine ih f hf fun i hi => hdated i ?_
        rw [windows, windowsAll_eq]
        exact List.mem_flatMap.2 ⟨f, hf, hi⟩
      have hwrites := writes_operands hfs
      have hencode (gs : List Filter) : (junction op (some gs)).encode =
          tagged op.typeName [("fields", .array (gs.map encode))] := by
        rw [encode, encodeAll_eq]
      have hread (fuel : Nat) (hms : ∀ m ∈ [("fields", array (fs.map encode))],
          m.2.Settles ∧ m.2.depth < fuel) := readNodes_settled hfs (hms _ (List.mem_singleton_self _))
      cases op with
      | all =>
          refine .of soundNode_operands none readWithin_succ (hencode fs) ?_
            (Text.normal_eq_self (by decide)) hwrites fun fuel => ⟨_, rfl, fun hms j hj => ?_⟩
          · rw [settled, settledAll_eq, hencode]
          · rw [hj, ok_bind, hread fuel hms, ok_bind, settled, settledAll_eq]
            rfl
      | any =>
          refine .of soundNode_operands none readWithin_succ (hencode fs) ?_
            (Text.normal_eq_self (by decide)) hwrites fun fuel => ⟨_, rfl, fun hms j hj => ?_⟩
          · rw [settled, settledAll_eq, hencode]
          · rw [hj, ok_bind, hread fuel hms, ok_bind, settled, settledAll_eq]
            rfl

end Filter

end TenantQuery
