import TenantQuery.Proofs.Filter.Codec
import TenantQuery.Proofs.Json.Verbatim

namespace TenantQuery

open Json Outcome

theorem Interval.decodes {i : Interval} (h : i.Dated) :
    Decodes encode (Slot.fresh read []) i i.settled where
  notNull := rfl
  reads := by
    simp only [encode, Slot.fresh, read, readWith, Slot.text, Slot.kept, readText, mapError_ok,
      ok_bind, parse_wire h]

theorem Interval.encode_settled (i : Interval) : i.settled.encode = i.encode := by
  rw [encode, encode, wire_settled]

namespace Predicate

/-- What the text of a test retains. -/
def retained : Predicate → Predicate
  | .during p => .during ⟨p.dimension, p.intervals.map (·.map Interval.settled)⟩
  | p => p

theorem encode_retained (p : Predicate) : p.retained.encode = p.encode := by
  cases p with
  | during p =>
      rw [retained, encode, encode, members, members,
        listOrNull_retained fun _ _ i _ => i.encode_settled]
      rfl
  | selector _ | columnComparison _ | regex _ | search _ | membership _ | like _ | bound _ => rfl

theorem fills_searchQuery (q : SearchQuery) :
    Fills SearchQuery.fields {} ([("type", .string q.type), ("value", .string q.value)] ++
      ifSome "caseSensitive" .bool q.caseSensitive) q :=
  .of (decodes_text _) (.of (decodes_text _) (.last (.ifSame (fun b _ => decodes_flag b) rfl .nil)))

theorem allSettle_members (p : Predicate) : AllSettle p.members := by
  cases p with
  | search p =>
      have hquery := ((fills_searchQuery p.query).settles_iff sound_searchQuery).2 (by simp)
      simp only [members, allSettle_cons, settles_string, hquery, allSettle_nil, and_self]
  | selector _ | columnComparison _ | regex _ | membership _ | like _ | bound _ | during _ =>
      simp [members, Interval.encode]

/-- A test of the time has names of its own whatever its windows are. -/
theorem names_during (p : During) :
    Sound.names ((("type", .string (during p).typeName) :: (during p).members).map (·.1)) = true :=
  show Sound.names ["type", "dimension", "intervals"] = true by decide

/-- Whatever test it is, its form is filled in by its members. -/
theorem exists_filled (p : Predicate) (hdated : ∀ i ∈ p.windows, i.Dated) :
    ∃ (σ : Type) (fields : List (Member σ)) (start w : σ) (build : σ → Predicate),
      SoundNode fields ∧ Fills fields start p.members w ∧ build w = p.retained ∧
      forms.lookup p.typeName = some fun j => (readRecord fields start j).map build := by
  cases p with
  | selector p =>
      exact ⟨_, _, {}, _, .selector, soundNode_selector,
        .of (decodes_text _) (.of (decodes_text _) .nil), rfl, rfl⟩
  | columnComparison p =>
      exact ⟨_, _, {}, _, .columnComparison, soundNode_columnComparison,
        .listSame (fun _ _ _ _ => rfl) .nil, rfl, rfl⟩
  | regex p =>
      exact ⟨_, _, {}, _, .regex, soundNode_regex,
        .of (decodes_text _) (.of (decodes_text _) .nil), rfl, rfl⟩
  | search p =>
      have hquery : Decodes object (Slot.record SearchQuery.fields {} []) _ p.query :=
        (fills_searchQuery p.query).decodes sound_searchQuery rfl
      exact ⟨_, _, {}, _, .search, soundNode_search,
        .of (decodes_text _) (.of hquery .nil), rfl, rfl⟩
  | membership p =>
      exact ⟨_, _, {}, _, .membership, soundNode_membership,
        .of (decodes_text _) (.listSame (fun _ _ _ _ => rfl) .nil), rfl, rfl⟩
  | like p =>
      exact ⟨_, _, {}, _, .like, soundNode_like,
        .of (decodes_text _) (.of (decodes_text _)
          (.last (.ifSame (fun s _ => decodes_text s) rfl .nil))), rfl, rfl⟩
  | bound p =>
      refine ⟨_, _, {}, _, .bound, soundNode_bound, ?_, rfl, rfl⟩
      simp only [members, List.append_assoc]
      exact .of (decodes_text _) (.ifSame (fun s _ => decodes_text s) rfl
        (.ifSame (fun s _ => decodes_text s) rfl (.ifSame (fun b _ => decodes_flag b) rfl
        (.ifSame (fun b _ => decodes_flag b) rfl
          (.last (.ifSame (fun s _ => decodes_text s) rfl .nil))))))
  | during p =>
      refine ⟨_, _, {}, _, .during, soundNode_during, .of (decodes_text _)
        (.listOrNull (fun is his i hi => (Interval.decodes (hdated i ?_)).reads) .nil), rfl, rfl⟩
      rw [windows, show p.intervals = some is from his]
      exact hi

end Predicate

namespace Filter

mutual

/-- What the text of a filter retains. -/
def retained : Filter → Filter
  | .test p => .test p.retained
  | .junction op none => .junction op none
  | .junction op (some fs) => .junction op (some (retainedAll fs))
  | .not f => .not (retained f)
  | .constant b => .constant b

def retainedAll : List Filter → List Filter
  | [] => []
  | f :: fs => retained f :: retainedAll fs

end

theorem retainedAll_eq (fs : List Filter) : retainedAll fs = fs.map retained := by
  induction fs with
  | nil => rfl
  | cons f fs ih => rw [retainedAll, ih, List.map_cons]

theorem encode_junction (op : Junction) (fs : List Filter) :
    (junction op (some fs)).encode = tagged op.typeName [("fields", listOrNull encode (some fs))] := by
  rw [encode, encodeAll_eq, listOrNull]

theorem dated_operand {op : Junction} {fs : List Filter} {f : Filter} (hf : f ∈ fs)
    (hdated : ∀ i ∈ (junction op (some fs)).windows, i.Dated) : ∀ i ∈ f.windows, i.Dated := by
  intro i hi
  refine hdated i ?_
  rw [windows, windowsAll_eq]
  exact List.mem_flatMap.2 ⟨f, hf, hi⟩

theorem fills_operand (f : Filter) :
    Fills operandFields none [("field", f.encode)] (some f.encode) :=
  .raw .nil

theorem fills_operands (fs : List Filter) :
    Fills operandsFields none [("fields", listOrNull encode (some fs))]
      ((some fs).map (·.map encode)) :=
  .rawItems .nil

theorem restores (f : Filter) (hdated : ∀ i ∈ f.windows, i.Dated) :
    Restores encode readWithin f f.retained := by
  induction f using Filter.induction with
  | test p =>
      obtain ⟨σ, fields, start, w, build, hsound, hw, hbuild, hlookup⟩ := p.exists_filled hdated
      refine .of hsound start readWithin_succ rfl ?_ hw fun fuel =>
        ⟨_, lookup_predicate hlookup, fun _ j hj => ?_⟩
      · rw [retained, encode, encode, p.encode_retained]
      · simp only [hj, map_ok, hbuild, retained]
  | constant b =>
      cases b with
      | true =>
          exact .of soundNode_nil () readWithin_succ rfl rfl .nil
            fun fuel => ⟨_, rfl, fun _ j hj => by rw [hj]; rfl⟩
      | false =>
          exact .of soundNode_nil () readWithin_succ rfl rfl .nil
            fun fuel => ⟨_, rfl, fun _ j hj => by rw [hj]; rfl⟩
  | not f ih =>
      have hf := ih hdated
      refine .of soundNode_operand none readWithin_succ rfl ?_ f.fills_operand
        fun fuel => ⟨_, rfl, fun hdepth j hj => ?_⟩
      · rw [retained, encode, encode, hf.again]
      · rw [hj, ok_bind, hf.reads fuel (hdepth _ (List.mem_singleton_self _))]
        rfl
  | absent op =>
      cases op with
      | all =>
          exact .of soundNode_operands none readWithin_succ rfl rfl (.cons rfl .nil)
            fun fuel => ⟨_, rfl, fun _ j hj => by rw [hj]; rfl⟩
      | any =>
          exact .of soundNode_operands none readWithin_succ rfl rfl (.cons rfl .nil)
            fun fuel => ⟨_, rfl, fun _ j hj => by rw [hj]; rfl⟩
  | junction op fs ih =>
      have hfs : ∀ f ∈ fs, Restores encode readWithin f f.retained :=
        fun f hf => ih f hf (dated_operand hf hdated)
      have hagain : (junction op (some fs)).retained.encode = (junction op (some fs)).encode := by
        rw [retained, retainedAll_eq, encode_junction, encode_junction, listOrNull, listOrNull,
          map_retained fun f hf => (hfs f hf).again]
      have hsome : ∀ gs ∈ some fs, ∀ f ∈ gs, Restores encode readWithin f f.retained := by
        rintro _ ⟨⟩
        exact hfs
      have hread (fuel : Nat) (hdepth : ∀ m ∈ [("fields", listOrNull encode (some fs))],
          m.2.depth < fuel) := readNodes_restored hsome (hdepth _ (List.mem_singleton_self _))
      cases op with
      | all =>
          refine .of soundNode_operands none readWithin_succ (encode_junction _ _) hagain
            (fills_operands fs) fun fuel => ⟨_, rfl, fun hdepth j hj => ?_⟩
          rw [hj, ok_bind, hread fuel hdepth, ok_bind, retained, retainedAll_eq]
          rfl
      | any =>
          refine .of soundNode_operands none readWithin_succ (encode_junction _ _) hagain
            (fills_operands fs) fun fuel => ⟨_, rfl, fun hdepth j hj => ?_⟩
          rw [hj, ok_bind, hread fuel hdepth, ok_bind, retained, retainedAll_eq]
          rfl

theorem solid (f : Filter) : Solid f.encode := by
  induction f using Filter.induction with
  | test p =>
      cases p with
      | during p =>
          refine solid_of_names (Predicate.names_during p) ?_
          simp only [Predicate.members, List.forall_mem_cons]
          exact ⟨trivial, trivial, proper_listOrNull fun _ _ _ _ => trivial, List.forall_mem_nil _⟩
      | _ => exact (rereads _ (List.forall_mem_nil _)).solid
  | constant b => exact (rereads _ (List.forall_mem_nil _)).solid
  | not f ih =>
      exact f.fills_operand.solid_tagged soundNode_operand (List.forall_mem_singleton.2 ih.proper)
  | absent op => exact (rereads _ (List.forall_mem_nil _)).solid
  | junction op fs ih =>
      have hproper : (listOrNull encode (some fs)).Proper := by
        refine proper_listOrNull ?_
        rintro _ ⟨⟩ f hf
        exact (ih f hf).proper
      rw [encode_junction]
      exact (fills_operands fs).solid_tagged soundNode_operands
        (List.forall_mem_singleton.2 hproper)

theorem settles (f : Filter) : f.encode.Settles := by
  induction f using Filter.induction with
  | test p =>
      cases p with
      | during p =>
          exact (settles_of_names (Predicate.names_during p)).2
            (allSettle_cons.2 ⟨settles_string _, (Predicate.during p).allSettle_members⟩)
      | _ => exact (restores _ (List.forall_mem_nil _)).settles rfl (Predicate.allSettle_members _)
  | constant b =>
      cases b <;> exact (restores _ (List.forall_mem_nil _)).settles rfl allSettle_nil
  | not f ih =>
      exact (f.fills_operand.settles_tagged soundNode_operand).2 (by simpa using ih)
  | absent op => exact (restores _ (List.forall_mem_nil _)).settles rfl (by simp)
  | junction op fs ih =>
      rw [encode_junction]
      exact ((fills_operands fs).settles_tagged soundNode_operands).2 (by simpa using ih)

end Filter

end TenantQuery
