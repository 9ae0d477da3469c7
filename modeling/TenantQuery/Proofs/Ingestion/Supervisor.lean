import TenantQuery.Ingestion.Supervisor
import TenantQuery.Proofs.Ingestion.Task
import TenantQuery.Proofs.Json.Compact
import TenantQuery.Proofs.Json.Fixed

namespace TenantQuery.Ingestion

open Json Outcome

/-- The value of a member, whatever the case of its letters; the last one counts. -/
def lastMember (members : List (String × Json)) (name : String) : Option Json :=
  (members.reverse.find? fun m => foldName m.1 = foldName name).map (·.2)

def tuningOf (j : Json) : Option Json := do
  let spec ← lastMember j.ownMembers "spec"
  lastMember spec.ownMembers "tuningConfig"

theorem rel_lastText {members : List (String × Json)} {texts : List (String × List Char)}
    (h : List.Forall₂ Texted members texts) (name : String) :
    Option.Rel Tight (lastMember members name) (Supervisor.lastText texts name) := by
  have hreverse := List.rel_reverse h
  rw [lastMember, Supervisor.lastText]
  revert hreverse
  generalize members.reverse = ms
  generalize texts.reverse = ts
  intro hreverse
  induction hreverse with
  | nil => exact .none
  | cons hm hrest ih =>
      rw [List.find?_cons, List.find?_cons, hm.1]
      split
      · exact .some hm.2
      · exact ih

theorem rel_bind {α β γ δ : Type} {r : α → β → Prop} {q : γ → δ → Prop} {x : Option α}
    {y : Option β} {f : α → Option γ} {g : β → Option δ} (h : Option.Rel r x y)
    (hnext : ∀ a b, r a b → Option.Rel q (f a) (g b)) : Option.Rel q (x >>= f) (y >>= g) := by
  cases h with
  | none => exact .none
  | some h => exact hnext _ _ h

theorem rel_tuningText {text : String} {j : Json} (h : Document j text.toList) :
    Option.Rel (fun j text => Document j text.toList) (tuningOf j) (Supervisor.tuningText text) := by
  refine rel_bind (rel_lastText h.tight.texts "spec") fun spec cs hspec => ?_
  rw [← bind_pure (lastMember spec.ownMembers "tuningConfig")]
  refine rel_bind (rel_lastText hspec.texts "tuningConfig") fun tuning cs htuning => .some ?_
  rw [String.toList_ofList]
  exact htuning.value.document

theorem lastMember_of_mem {members : List (String × Json)} {name : String} {j : Json}
    (hmem : (name, j) ∈ members)
    (hunique : ∀ m ∈ members, foldName m.1 = foldName name → m.2 = j) :
    lastMember members name = some j := by
  cases hfind : members.reverse.find? fun m => foldName m.1 = foldName name with
  | none =>
      have hnone := List.find?_eq_none.1 hfind (name, j) (List.mem_reverse.2 hmem)
      simp at hnone
  | some m =>
      have hm := List.mem_reverse.1 (List.mem_of_find?_eq_some hfind)
      have hname : foldName m.1 = foldName name := by simpa using List.find?_some hfind
      rw [lastMember, hfind, Option.map_some, hunique m hm hname]

theorem lastMember_eq_none {members : List (String × Json)} {name : String}
    (h : ∀ m ∈ members, foldName m.1 ≠ foldName name) : lastMember members name = none := by
  rw [lastMember, List.find?_eq_none.2, Option.map_none]
  intro m hm
  simpa using h m (List.mem_reverse.1 hm)

section Names

variable {names : List String} {members : List (String × Json)}

theorem mem_ownMembers_settled (hkeys : (members.map (·.1)).Nodup)
    (hsettles : (object members).Settles) {m : String × Json} :
    m ∈ (object members).settled.ownMembers ↔
      ∃ n ∈ members, n.2.isNull = false ∧ m = (Text.normal n.1, n.2.settled) := by
  rw [settled_object hkeys hsettles, ownMembers, (perm_sortByUnits _).mem_iff, mem_kept]
  simp only [isNull_settled]

theorem foldName_settled (hnames : Sound.names names = true)
    (hsub : (members.map (·.1)).Sublist names) (hsettles : (object members).Settles) {name : String}
    (hname : name ∈ names) {m : String × Json} (hm : m ∈ (object members).settled.ownMembers)
    (hfold : foldName m.1 = foldName name) :
    ∃ n ∈ members, n.1 = name ∧ n.2.isNull = false ∧ m = (name, n.2.settled) := by
  rw [Sound.names, Bool.and_eq_true, decide_eq_true_eq, List.all_eq_true] at hnames
  have hkeys := hsub.nodup (List.Nodup.of_map _ hnames.1)
  obtain ⟨n, hn, hnull, rfl⟩ := (mem_ownMembers_settled hkeys hsettles).1 hm
  have hmem : n.1 ∈ names := hsub.subset (List.mem_map_of_mem hn)
  have hplain : Text.normal n.1 = n.1 := Text.normal_eq_self (hnames.2 n.1 hmem)
  rw [hplain] at hfold ⊢
  have heq : n.1 = name := List.inj_on_of_nodup_map hnames.1 hmem hname hfold
  exact ⟨n, hn, heq, hnull, by rw [heq]⟩

theorem lastMember_settled (hnames : Sound.names names = true)
    (hsub : (members.map (·.1)).Sublist names) (hsettles : (object members).Settles) {name : String}
    {j : Json} (hmem : (name, j) ∈ members) (hnull : j.isNull = false) :
    lastMember (object members).settled.ownMembers name = some j.settled := by
  have hdistinct := hnames
  rw [Sound.names, Bool.and_eq_true, decide_eq_true_eq, List.all_eq_true] at hdistinct
  have hkeys := hsub.nodup (List.Nodup.of_map _ hdistinct.1)
  have hname : name ∈ names := hsub.subset (List.mem_map_of_mem hmem)
  refine lastMember_of_mem ?_ fun m hm hfold => ?_
  · refine (mem_ownMembers_settled hkeys hsettles).2 ⟨(name, j), hmem, hnull, ?_⟩
    rw [Text.normal_eq_self (hdistinct.2 name hname)]
  · obtain ⟨n, hn, heq, -, rfl⟩ := foldName_settled hnames hsub hsettles hname hm hfold
    rw [List.inj_on_of_nodup_map hkeys hn hmem heq]

theorem lastMember_settled_eq_none (hnames : Sound.names names = true)
    (hsub : (members.map (·.1)).Sublist names) (hsettles : (object members).Settles) {name : String}
    (hname : name ∈ names) (hnone : name ∉ members.map (·.1)) :
    lastMember (object members).settled.ownMembers name = none := by
  refine lastMember_eq_none fun m hm hfold => hnone ?_
  obtain ⟨n, hn, heq, -⟩ := foldName_settled hnames hsub hsettles hname hm hfold
  exact List.mem_map.2 ⟨n, hn, heq⟩

end Names

section Texts

variable {α : Type} {encode : α → Json} {v : Option α}

theorem spelt_ifSome (name : String) {text : Option String}
    (h : Option.Rel (fun a text => Document (encode a) text.toList) v text) :
    List.Forall₂ Spelt (ifSome name encode v) (text.toList.map fun t => (name, t)) := by
  cases h with
  | none => exact .nil
  | some hdocument => exact .cons ⟨rfl, hdocument⟩ .nil

theorem rel_encode (h : ∀ a ∈ v, (encode a).Spelled) :
    Option.Rel (fun a text => Document (encode a) text.toList) v
      (v.map fun a => (encode a).encode) := by
  cases v with
  | none => exact .none
  | some a => exact .some (document_encode (h a rfl))

end Texts

namespace SupervisorSpec

structure Fits (s : SupervisorSpec) : Prop where
  ioConfig : ∀ c ∈ s.ioConfig, c.Fits
  dataSchema : ∀ d ∈ s.dataSchema, d.Fits

def settled (s : SupervisorSpec) : SupervisorSpec where
  ioConfig := s.ioConfig.map IOConfig.settled
  dataSchema := s.dataSchema.map DataSchema.settled

def members (s : SupervisorSpec) : List (String × Json) :=
  ifSome "ioConfig" IOConfig.encode s.ioConfig ++ ifSome "dataSchema" DataSchema.encode s.dataSchema

/-- The value of a specification, its tuning options being `tuning`. -/
def value (tuning : Option Json) (s : SupervisorSpec) : Json :=
  .object (s.members ++ ifSome "tuningConfig" (fun j => j) tuning)

theorem sound_fields : Sound fields :=
  .of (by decide) (by simp [fields, Member.independent_of])

theorem keep_fields : Keep fields fun w => ∀ d ∈ w.dataSchema, d.Fits :=
  .other (fun _ _ h => h) (.of (.optional fun _ _ _ => DataSchema.fits_of_read)
    (fun _ _ _ h => h) .nil)

theorem fits_of_read {j : Json} {s : SupervisorSpec} (h : read j = .ok s) : s.Fits := by
  rw [read] at h
  split at h
  · rename_i spec hspec
    cases h
    obtain ⟨w, hw, h⟩ := bind_eq_ok.1 hspec
    obtain ⟨ioConfig, hio, h⟩ := bind_eq_ok.1 h
    cases h
    exact ⟨readOptionalNode_ensures IOConfig.fits_of_read hio,
      readRecord_keeps keep_fields (by simp) hw⟩
  · cases h

section Reading

variable {s : SupervisorSpec} {tuning : Option Json}

theorem names_members (s : SupervisorSpec) :
    (s.members.map (·.1)).Sublist ["ioConfig", "dataSchema"] := by
  obtain ⟨ioConfig, dataSchema, tuningConfig⟩ := s
  cases ioConfig <;> cases dataSchema <;> simp [members, ifSome]

theorem names_value (s : SupervisorSpec) (tuning : Option Json) :
    ((s.members ++ ifSome "tuningConfig" (fun j => j) tuning).map (·.1)).Sublist
      ["ioConfig", "dataSchema", "tuningConfig"] := by
  have htuning : ((ifSome "tuningConfig" (fun j => j) tuning).map (·.1)).Sublist
      ["tuningConfig"] := by
    cases tuning <;> simp [ifSome]
  rw [List.map_append]
  exact s.names_members.append htuning

theorem writes (h : s.Fits) :
    Writes fields {} s.members s.settled.members
      ⟨s.ioConfig.map fun c => c.encode.settled, s.settled.dataSchema⟩ := by
  have hio (c) (hc : c ∈ s.ioConfig) := IOConfig.rereads (h.ioConfig c hc)
  exact .rawSome (fun c hc => ⟨(hio c hc).alike, (hio c hc).notNull⟩) rfl
    (.last (.ifSome (fun d hd => DataSchema.codes (h.dataSchema d hd)) rfl .nil))

theorem foreign_tuning : Foreign fields (ifSome "tuningConfig" (fun j => j) tuning) := by
  cases tuning with
  | none => exact List.forall_mem_nil _
  | some j =>
      have hname : member? fields "tuningConfig" = none ∧
          Text.normal "tuningConfig" = "tuningConfig" := by decide +kernel
      exact List.forall_mem_singleton.2 hname

theorem read_settled (h : s.Fits) (hsettles : (s.value tuning).Settles) :
    read (s.value tuning).settled = .ok s.settled := by
  have hkeys := (s.names_value tuning).nodup (by decide)
  have hwire := readRecord_settled sound_fields (writes h) foreign_tuning
    List.perm_append_comm hkeys hsettles
  have hio : readOptionalNode IOConfig.read (s.ioConfig.map fun c => c.encode.settled) =
      .ok s.settled.ioConfig :=
    Query.readOptional_settled (fun c hc => IOConfig.rereads (h.ioConfig c hc))
      fun m (hm : m ∈ ifSome "ioConfig" IOConfig.encode s.ioConfig) =>
        ((settles_object hkeys).1 hsettles).1 m (by simp [members, hm])
  simp only [read, readMembers, value, hwire, ok_bind, hio]
  rfl

theorem alike (h : s.Fits) (htuning : ∀ j ∈ tuning, j.Proper) :
    Alike (s.value tuning) (s.settled.value tuning) := by
  have hproper : ∀ m ∈ ifSome "tuningConfig" (fun j => j) tuning, m.2.Proper := by
    cases tuning with
    | none => exact List.forall_mem_nil _
    | some j => exact List.forall_mem_singleton.2 (htuning j rfl)
  have hkeys := (s.names_value tuning).nodup (by decide)
  -- The options are no field of the record, so they are put in front of its members.
  have hfirst := (writes h).alike hproper
    (((List.perm_append_comm.map _).nodup_iff).1 hkeys)
  exact hfirst.reorder (.mk List.perm_append_comm) (.mk List.perm_append_comm)

theorem codes (h : s.Fits) (htuning : ∀ j ∈ tuning, j.Proper) :
    Codes (value tuning) (Slot.fresh read []) s s.settled s.settled :=
  ⟨alike h htuning, rfl, read_settled h⟩

theorem document_write (hmembers : ∀ m ∈ s.members, m.2.Proper)
    (htuning : Option.Rel (fun j text => Document j text.toList) tuning s.tuningConfig) :
    Document (s.value tuning) s.write.toList := by
  have hio : ∀ c ∈ s.ioConfig, c.encode.Spelled := fun c hc =>
    (hmembers ("ioConfig", c.encode) (by simp [members, ifSome, Option.mem_def.1 hc])).spelled
  have hschema : ∀ d ∈ s.dataSchema, d.encode.Spelled := fun d hd =>
    (hmembers ("dataSchema", d.encode) (by simp [members, ifSome, Option.mem_def.1 hd])).spelled
  have hknown := List.rel_append (spelt_ifSome "ioConfig" (rel_encode hio))
    (spelt_ifSome "dataSchema" (rel_encode hschema))
  exact document_writeTexts (List.rel_append hknown (spelt_ifSome "tuningConfig" htuning))

end Reading

/-- Tuning options in normal form, in which null is as good as none. -/
def settledTuning : Option Json → Option Json
  | some j => if j.isNull then none else some j.settled
  | none => none

theorem mem_settledTuning {tuning : Option Json} {k : Json} (h : k ∈ settledTuning tuning) :
    ∃ j ∈ tuning, j.isNull = false ∧ k = j.settled := by
  cases tuning with
  | none => cases h
  | some j =>
      rw [settledTuning] at h
      split at h
      · cases h
      · rename_i hnull
        exact ⟨j, rfl, by simpa using hnull, (Option.some.inj h).symm⟩

theorem kept_settledTuning {tuning : Option Json} (h : ∀ j ∈ tuning, j.Settles) :
    kept (ifSome "tuningConfig" (fun j => j) (settledTuning tuning)) =
      kept (ifSome "tuningConfig" (fun j => j) tuning) := by
  cases tuning with
  | none => rfl
  | some j =>
      have hagain : j.settled.settled = j.settled := settled_eq (h j rfl).normalForm_settled
      cases hnull : j.isNull with
      | true => simp [settledTuning, kept, ifSome, hnull]
      | false => simp [settledTuning, kept, ifSome, hnull, hagain]

theorem settles_members {s : SupervisorSpec} {tuning : Option Json} (h : (s.value tuning).Settles) :
    AllSettle s.members ∧ ∀ j ∈ tuning, j.Settles := by
  have hkeys := (s.names_value tuning).nodup (by decide)
  have hmembers := allSettle_append.1 ((settles_object hkeys).1 h).1
  rwa [allSettle_ifSome] at hmembers

theorem normalForm_settledTuning {s : SupervisorSpec} {tuning : Option Json}
    (hsettles : (s.value tuning).Settles) :
    (s.value (settledTuning tuning)).normalForm = (s.value tuning).normalForm := by
  have hkeys := (s.names_value tuning).nodup (by decide)
  have hkeys' := (s.names_value (settledTuning tuning)).nodup (by decide)
  obtain ⟨hmembers, htuning⟩ := settles_members hsettles
  refine normalForm_object_congr hkeys hkeys' hsettles ?_ ?_
  · refine allSettle_append.2 ⟨hmembers, allSettle_ifSome.2 fun k hk => ?_⟩
    obtain ⟨j, hj, -, rfl⟩ := mem_settledTuning hk
    exact ⟨_, (htuning j hj).normalForm_settled⟩
  · rw [kept_append, kept_append, kept_settledTuning htuning]

end SupervisorSpec

theorem SupervisorType.codes {t : SupervisorType} (h : t ≠ .unset) :
    Codes .string (Slot.fresh SupervisorType.read []) t.name t.name t := by
  have hname : Text.normal t.name = t.name := by
    cases t <;> exact Text.normal_eq_self (by decide)
  have hknown : ofName? t.name = some t := by
    cases t with
    | unset => exact absurd rfl h
    | _ => rfl
  obtain ⟨halike, hnull, -⟩ := codes_composed hname
  refine ⟨halike, hnull, fun _ => ?_⟩
  rw [settled_string, hname]
  exact readName_string hknown

namespace Supervisor

def canonical (s : Supervisor) : Except Error String :=
  Json.canonicalize s.write

def settled (s : Supervisor) : Supervisor :=
  { s with spec := s.spec.map SupervisorSpec.settled }

def members (tuning : Option Json) (s : Supervisor) : List (String × Json) :=
  ("type", .string s.type.name) :: (ifSome "spec" (SupervisorSpec.value tuning) s.spec ++
    ifSome "suspended" .bool s.suspended)

def value (tuning : Option Json) (s : Supervisor) : Json :=
  .object (s.members tuning)

theorem sound_fields : Sound fields :=
  .of (by decide) (by simp [fields, Member.independent_of])

theorem keep_fields : Keep fields fun s => ∀ spec ∈ s.spec, spec.Fits :=
  .other (fun _ _ h => h) (.of (.optional fun _ _ _ => SupervisorSpec.fits_of_read)
    (fun _ _ _ h => h) (.other (fun _ _ h => h) .nil))

def tuned (text : Option String) (s : Supervisor) : Supervisor :=
  { s with spec := s.spec.map fun spec => { spec with tuningConfig := text } }

theorem parse_eq_ok {text : String} {s : Supervisor} :
    parse text = .ok s ↔ ∃ j k, Json.parse text = .ok j ∧ readRecord fields {} j = .ok k ∧
      s = k.tuned (tuningText text) := by
  have hread : parse text = .ok s ↔ readText text = .ok s := by
    unfold parse
    cases readText text <;> simp
  rw [hread, readText, bind_eq_ok]
  simp only [bind_eq_ok, pure_eq_ok, Except.ok.injEq]
  constructor
  · rintro ⟨k, ⟨j, hj, hk⟩, rfl⟩
    exact ⟨j, k, hj, hk, rfl⟩
  · rintro ⟨j, k, hj, hk, rfl⟩
    exact ⟨k, ⟨j, hj, hk⟩, rfl⟩

section Reading

variable {s : Supervisor} {tuning : Option Json}

@[simp] theorem members_tuned (s : Supervisor) (text : Option String) :
    (s.tuned text).members tuning = s.members tuning := by
  obtain ⟨type, spec, suspended⟩ := s
  cases spec <;> rfl

theorem names_members (s : Supervisor) (tuning : Option Json) :
    ((s.members tuning).map (·.1)).Sublist ["type", "spec", "suspended"] := by
  obtain ⟨type, spec, suspended⟩ := s
  cases spec <;> cases suspended <;> simp [members, ifSome]

theorem writes (h : ∀ spec ∈ s.spec, spec.Fits) (htuning : ∀ j ∈ tuning, j.Proper)
    (htype : s.type ≠ .unset) :
    Writes fields {} (s.members tuning) (s.settled.members tuning) s.settled := by
  have hspec (spec) (hspec : spec ∈ s.spec) :=
    SupervisorSpec.codes (h spec hspec) htuning
  exact .of (SupervisorType.codes htype) (.ifSome hspec rfl
    (.last (.ifSame (fun b _ => codes_flag b) rfl .nil)))

theorem readRecord_settled (h : ∀ spec ∈ s.spec, spec.Fits) (htuning : ∀ j ∈ tuning, j.Proper)
    (htype : s.type ≠ .unset) (hsettles : (s.value tuning).Settles) :
    readRecord fields {} (s.value tuning).settled = .ok s.settled :=
  Json.readRecord_settled sound_fields (writes h htuning htype) (List.forall_mem_nil _)
    (List.Perm.refl _) ((s.names_members tuning).nodup (by decide)) hsettles

theorem alike (h : ∀ spec ∈ s.spec, spec.Fits) (htuning : ∀ j ∈ tuning, j.Proper)
    (htype : s.type ≠ .unset) :
    Alike (s.value tuning) (s.settled.value tuning) :=
  (writes h htuning htype).alike (List.forall_mem_nil _)
    ((s.names_members tuning).nodup (by decide))

theorem document_write (hmembers : ∀ spec ∈ s.spec, ∀ m ∈ spec.members, m.2.Proper)
    (htuning : ∀ spec ∈ s.spec,
      Option.Rel (fun j text => Document j text.toList) tuning spec.tuningConfig) :
    Document (s.value tuning) s.write.toList := by
  have hspec : Option.Rel (fun spec text => Document (SupervisorSpec.value tuning spec) text.toList)
      s.spec (s.spec.map SupervisorSpec.write) := by
    cases hspec : s.spec with
    | none => exact .none
    | some spec =>
        exact .some (SupervisorSpec.document_write (hmembers spec hspec) (htuning spec hspec))
  have htype : Spelt ("type", .string s.type.name) ("type", (Json.string s.type.name).encode) :=
    ⟨rfl, document_encode trivial⟩
  have hsuspended : Option.Rel (fun b text => Document (.bool b) text.toList) s.suspended
      (s.suspended.map fun b => (Json.bool b).encode) := rel_encode fun _ _ => trivial
  exact document_writeTexts (.cons htype (List.rel_append (spelt_ifSome "spec" hspec)
    (spelt_ifSome "suspended" hsuspended)))

theorem mem_members_spec {spec : SupervisorSpec} (hspec : spec ∈ s.spec) :
    ("spec", spec.value tuning) ∈ s.members tuning := by
  simp [members, ifSome, Option.mem_def.1 hspec]

theorem settles_spec (hsettles : (s.value tuning).Settles) {spec : SupervisorSpec}
    (hspec : spec ∈ s.spec) : (spec.value tuning).Settles :=
  have hkeys := (s.names_members tuning).nodup (by decide)
  ((settles_object hkeys).1 hsettles).1 _ (mem_members_spec hspec)

/-- The normal form is the same if the tuning options are in normal form already. -/
theorem normalForm_settledTuning (hsettles : (s.value tuning).Settles) :
    (s.value (SupervisorSpec.settledTuning tuning)).normalForm = (s.value tuning).normalForm := by
  have hspec : normalMembers (ifSome "spec" (SupervisorSpec.value
      (SupervisorSpec.settledTuning tuning)) s.spec) =
        normalMembers (ifSome "spec" (SupervisorSpec.value tuning) s.spec) := by
    cases hspec : s.spec with
    | none => rfl
    | some spec =>
        have hform := SupervisorSpec.normalForm_settledTuning (settles_spec hsettles hspec)
        simp only [ifSome, normalMembers, hform]
  rw [value, value, normalForm, normalForm]
  simp only [members, normalMembers_eq_map, List.map_cons, List.map_append] at hspec ⊢
  rw [hspec]

theorem tuningOf_settled (htuning : ∀ j ∈ tuning, j.isNull = false ∧ j.settled = j)
    (hsettles : (s.value tuning).Settles) {spec : SupervisorSpec} (hspec : spec ∈ s.spec) :
    tuningOf (s.value tuning).settled = tuning := by
  have hsettle := settles_spec hsettles hspec
  rw [tuningOf, value, lastMember_settled (by decide) (s.names_members tuning) hsettles
    (mem_members_spec hspec) rfl]
  have hnames := spec.names_value tuning
  cases tuning with
  | none =>
      -- No other member could be taken for the options.
      refine lastMember_settled_eq_none (by decide) hnames hsettle (by decide) fun hmem => ?_
      rw [ifSome, List.append_nil] at hmem
      exact absurd (spec.names_members.subset hmem) (by decide)
  | some j =>
      obtain ⟨hnull, hsettled⟩ := htuning j rfl
      have hmem : ("tuningConfig", j) ∈
          spec.members ++ ifSome "tuningConfig" (fun j => j) (some j) := by simp [ifSome]
      have hlast := lastMember_settled (by decide) hnames hsettle hmem hnull
      rw [hsettled] at hlast
      exact hlast

theorem type_of_readRecord (hsettles : (s.value tuning).Settles) {t : Supervisor}
    (h : readRecord fields {} (s.value tuning).settled = .ok t) : s.type ≠ .unset := by
  have hnames : ∀ m ∈ s.members tuning, Text.normal m.1 = m.1 ∧ Exact fields m.1 := by
    intro m hm
    have hmem := (s.names_members tuning).subset (List.mem_map_of_mem hm)
    have hplain : ∀ name ∈ ["type", "spec", "suspended"], Text.normal name = name := by
      decide +kernel
    exact ⟨hplain m.1 hmem, sound_fields.exact hmem⟩
  obtain ⟨type, htype⟩ := slot_of_readRecord_settled sound_fields
    ((s.names_members tuning).nodup (by decide)) hnames hsettles h List.mem_cons_self
    (j := .string s.type.name) List.mem_cons_self rfl
  intro hunset
  rw [hunset, settled_string, Text.normal_eq_self (by decide)] at htype
  cases htype

theorem tuning_of_parse {text : String} (h : parse text = .ok s) :
    (∀ spec ∈ s.spec, spec.Fits) ∧ ∃ tuning : Option Json,
      (∀ j ∈ tuning, j.Spelled ∧ ∃ spec, spec ∈ s.spec) ∧
      ∀ spec ∈ s.spec,
        Option.Rel (fun j text => Document j text.toList) tuning spec.tuningConfig := by
  obtain ⟨j, ⟨type, spec, suspended⟩, hj, hk, rfl⟩ := parse_eq_ok.1 h
  have hfits := readRecord_keeps keep_fields (by simp) hk
  have hrel := rel_tuningText (Json.parse_eq_ok.1 hj).1
  cases spec with
  | none => refine ⟨?_, none, ?_, ?_⟩ <;> rintro _ ⟨⟩
  | some spec =>
      refine ⟨?_, tuningOf j, fun i hi => ⟨?_, _, rfl⟩, ?_⟩
      · rintro _ ⟨⟩
        exact ⟨(hfits spec rfl).ioConfig, (hfits spec rfl).dataSchema⟩
      · rw [Option.mem_def.1 hi] at hrel
        revert hrel
        generalize tuningText text = tuning
        rintro ⟨hdocument⟩
        exact hdocument.spelled
      · rintro _ ⟨⟩
        exact hrel

theorem settledTuning_spec (hsettles : (s.value tuning).Settles)
    (h : ∀ j ∈ tuning, j.Spelled ∧ ∃ spec, spec ∈ s.spec) :
    ∀ k ∈ SupervisorSpec.settledTuning tuning,
      k.Proper ∧ k.isNull = false ∧ k.settled = k := by
  intro k hk
  obtain ⟨j, hj, hnull, rfl⟩ := SupervisorSpec.mem_settledTuning hk
  obtain ⟨hspelled, spec, hspec⟩ := h j hj
  have hsettle := (SupervisorSpec.settles_members (settles_spec hsettles hspec)).2 j hj
  exact ⟨hspelled.proper hsettle.normalForm_eq, by rwa [isNull_settled],
    settled_eq hsettle.normalForm_settled⟩

theorem canonicalize_document {text out : String} {j : Json} (h : Document j text.toList) :
    canonicalize text = .ok out ↔ j.canonical = .ok out := by
  rw [canonicalize_eq_ok, canonical_eq_ok]
  constructor
  · rintro ⟨k, hk, hcanonical⟩
    cases h.unique hk
    exact hcanonical
  · exact fun hcanonical => ⟨j, h, hcanonical⟩

theorem parse_eq_ok_iff (hfits : ∀ spec ∈ s.spec, spec.Fits) (htuning : ∀ j ∈ tuning, j.Proper)
    (hsettles : (s.value tuning).Settles) {text : String}
    (hparse : Json.parse text = .ok (s.value tuning).settled) {s' : Supervisor} :
    parse text = .ok s' ↔ s.type ≠ .unset ∧ s' = s.settled.tuned (tuningText text) := by
  simp only [parse_eq_ok, hparse, Except.ok.injEq, exists_and_left, exists_eq_left']
  constructor
  · rintro ⟨k, hk, rfl⟩
    have htype := type_of_readRecord hsettles hk
    rw [readRecord_settled hfits htuning htype hsettles] at hk
    exact ⟨htype, by rw [Except.ok.inj hk]⟩
  · rintro ⟨htype, rfl⟩
    exact ⟨s.settled, readRecord_settled hfits htuning htype hsettles, rfl⟩

theorem exists_of_mem_tuned {text : Option String} {again : SupervisorSpec}
    (h : again ∈ (s.settled.tuned text).spec) :
    ∃ spec ∈ s.spec, again = { spec.settled with tuningConfig := text } := by
  obtain ⟨settled, hsettled, rfl⟩ := Option.map_eq_some_iff.1 h
  obtain ⟨spec, hspec, rfl⟩ := Option.map_eq_some_iff.1 hsettled
  exact ⟨spec, hspec, rfl⟩

theorem canonical_settled (hfits : ∀ spec ∈ s.spec, spec.Fits)
    (htuning : ∀ j ∈ tuning, j.Proper ∧ j.isNull = false ∧ j.settled = j)
    (htype : s.type ≠ .unset) (hsettles : (s.value tuning).Settles) {text : String}
    (hparse : Json.parse text = .ok (s.value tuning).settled)
    (htext : text = writePlain (s.value tuning).settled) :
    (s.settled.tuned (tuningText text)).canonical = .ok text := by
  obtain ⟨hdocument, hdepth⟩ := Json.parse_eq_ok.1 hparse
  have halike := alike hfits (fun j hj => (htuning j hj).1) htype
  have hvalue : (s.settled.tuned (tuningText text)).value tuning = s.settled.value tuning := by
    rw [value, members_tuned, value]
  have hwrite : Document (s.settled.value tuning)
      (s.settled.tuned (tuningText text)).write.toList := by
    rw [← hvalue]
    refine document_write ?_ ?_ <;> intro again hagain
    · obtain ⟨spec, hspec, rfl⟩ := exists_of_mem_tuned hagain
      exact (SupervisorSpec.writes (hfits spec hspec)).proper'
    · obtain ⟨spec, hspec, rfl⟩ := exists_of_mem_tuned hagain
      have hrel := rel_tuningText hdocument
      rwa [tuningOf_settled (fun j hj => (htuning j hj).2) hsettles hspec] at hrel
  have hcanonical : (s.value tuning).canonical = .ok text := by
    refine canonical_eq_ok.2 ⟨?_, hsettles, htext⟩
    rwa [← halike.proper.depth_eq hsettles.normalForm_eq]
  exact (canonicalize_document hwrite).2 (halike.canonical_eq hcanonical)

theorem canonical_readBack {text canonical : String} (h : parse text = .ok s)
    (hcanonical : s.canonical = .ok canonical) :
    ((∃ s', parse canonical = .ok s') ↔ s.type ≠ .unset) ∧
      ∀ s', parse canonical = .ok s' → s'.canonical = .ok canonical := by
  obtain ⟨hfits, tuning, hspelled, hrel⟩ := tuning_of_parse h
  have hdocument : Document (s.value tuning) s.write.toList := by
    refine document_write (fun spec hspec => ?_) hrel
    exact (SupervisorSpec.writes (hfits spec hspec)).proper
  obtain ⟨hdepth, hsettles, rfl⟩ := canonical_eq_ok.1 ((canonicalize_document hdocument).1 hcanonical)
  have hparse : Json.parse (writePlain (s.value tuning).settled) = .ok (s.value tuning).settled :=
    parse_writePlain (hdocument.spelled.proper hsettles.normalForm_eq).spelled
      (hsettles.normalOf.depth_le.trans hdepth)
  -- The options as they are spelled may name a member twice. In normal form they are proper, and
  -- the canonical form is the same.
  have htuning := settledTuning_spec hsettles hspelled
  have hform := normalForm_settledTuning hsettles
  have hsettles' := (settles_congr hform).2 hsettles
  rw [← hsettles.settled_eq_of hform] at hparse ⊢
  simp only [parse_eq_ok_iff hfits (fun j hj => (htuning j hj).1) hsettles' hparse]
  refine ⟨⟨fun ⟨_, htype, _⟩ => htype, fun htype => ⟨_, htype, rfl⟩⟩, ?_⟩
  rintro _ ⟨htype, rfl⟩
  exact canonical_settled hfits htuning htype hsettles' hparse rfl

end Reading

end Supervisor

/-- Ingestions are read back. Of anything that is read from a text and has a canonical form: that of a
task is read if and only if the task says where it reads from, and what is read has the same
canonical form unless the context says nothing but null. That of a supervisor is read if and only
if the supervisor has a type, and what is read has the same canonical form. -/
theorem specs_readBack (text canonical : String) :
    (∀ t, Task.parse text = .ok t → t.encode.canonical = .ok canonical →
      ((∃ t', Task.parse canonical = .ok t') ↔ t.spec.ioConfig.isSome) ∧
        ∀ t', Task.parse canonical = .ok t' →
          (t'.encode.canonical = .ok canonical ↔ t.spec.Telling)) ∧
    ∀ s, Supervisor.parse text = .ok s → s.canonical = .ok canonical →
      ((∃ s', Supervisor.parse canonical = .ok s') ↔ s.type ≠ .unset) ∧
        ∀ s', Supervisor.parse canonical = .ok s' → s'.canonical = .ok canonical :=
  ⟨fun _ h hcanonical => Task.canonical_readBack h hcanonical,
    fun _ h hcanonical => Supervisor.canonical_readBack h hcanonical⟩

def nightly : Task where
  spec :=
    { ioConfig := some (.kafka { topic := "events" })
      dataSchema := { dataSource := "events" } }

def watcherText : Json :=
  .object [("type", .string "kafka"),
    ("spec", .object [("tuningConfig", .object [("a", .number "1"), ("b", .null)])])]

def watcher : Supervisor :=
  ⟨.kafka, some ⟨none, none, some "\x7b\"a\":1,\"b\":null\x7d"⟩, none⟩

theorem parse_nightly : Task.parse nightly.encode.encode = .ok nightly := by
  have hread : Task.read (some nightly.encode) = .ok nightly := rfl
  have hspec := Spec.proper (Task.fits_of_read hread).1 rfl
  have hspelled := (Task.proper_of_spec (t := nightly) hspec).spelled
  exact Task.parse_eq_ok.2 ⟨_, (Json.parse_encode_eq_ok hspelled).2 ⟨rfl, by decide⟩, hread⟩

theorem parse_watcherText : Supervisor.parse watcherText.encode = .ok watcher := by
  have hspelled : watcherText.Spelled := by
    simp [watcherText, HasLiterals, Everywhere, EverywhereMembers]
    decide
  have htuning : Supervisor.tuningText watcherText.encode =
      some "\x7b\"a\":1,\"b\":null\x7d" := by decide +kernel
  refine Supervisor.parse_eq_ok.2
    ⟨_, _, (Json.parse_encode_eq_ok hspelled).2 ⟨rfl, by decide⟩, rfl, ?_⟩
  rw [htuning]
  rfl

theorem specs_readBack_nightly :
    (∃ canonical t, nightly.encode.canonical = .ok canonical ∧ Task.parse canonical = .ok t ∧
      t.encode.canonical = .ok canonical) ∧
    ∃ canonical s, watcher.canonical = .ok canonical ∧ Supervisor.parse canonical = .ok s ∧
      s.canonical = .ok canonical := by
  constructor
  · obtain ⟨c, hc⟩ := exists_of_isOk (show nightly.encode.canonical.isOk = true by decide +kernel)
    obtain ⟨haccepted, hsame⟩ := (specs_readBack _ c).1 nightly parse_nightly hc
    obtain ⟨t, ht⟩ := haccepted.2 rfl
    exact ⟨c, t, hc, ht, (hsame t ht).2 (by simp [Spec.Telling, nightly])⟩
  · obtain ⟨c, hc⟩ := exists_of_isOk (show watcher.canonical.isOk = true by decide +kernel)
    obtain ⟨haccepted, hsame⟩ := (specs_readBack _ c).2 watcher parse_watcherText hc
    obtain ⟨s, hs⟩ := haccepted.2 (by decide)
    exact ⟨c, s, hc, hs, hsame s hs⟩

def bareText : Json :=
  .object [("type", .string parallelType)]

def blankText : Json :=
  .object []

theorem parse_bareText :
    (Task.parse bareText.encode = .ok {} ∧
      ∃ canonical, ({} : Task).encode.canonical = .ok canonical ∧
        ∀ t, Task.parse canonical ≠ .ok t) ∧
    Supervisor.parse blankText.encode = .ok {} ∧
      ∃ canonical, ({} : Supervisor).canonical = .ok canonical ∧
        ∀ s, Supervisor.parse canonical ≠ .ok s := by
  have hbare : bareText.Spelled := by
    simp [bareText, HasLiterals, Everywhere, EverywhereMembers]
  have hblank : blankText.Spelled := by
    simp [blankText, HasLiterals, Everywhere, EverywhereMembers]
  have htask : Task.parse bareText.encode = .ok {} :=
    Task.parse_eq_ok.2 ⟨_, (Json.parse_encode_eq_ok hbare).2 ⟨rfl, by decide⟩, rfl⟩
  have hsupervisor : Supervisor.parse blankText.encode = .ok {} :=
    Supervisor.parse_eq_ok.2 ⟨_, _, (Json.parse_encode_eq_ok hblank).2 ⟨rfl, by decide⟩, rfl, rfl⟩
  obtain ⟨c, hc⟩ := exists_of_isOk (show ({} : Task).encode.canonical.isOk = true by decide +kernel)
  obtain ⟨d, hd⟩ := exists_of_isOk (show ({} : Supervisor).canonical.isOk = true by decide +kernel)
  have hrefused := (Task.canonical_readBack htask hc).1
  have hrefused' := (Supervisor.canonical_readBack hsupervisor hd).1
  refine ⟨⟨htask, c, hc, fun t ht => ?_⟩, hsupervisor, d, hd, fun s hs => ?_⟩
  · exact absurd (hrefused.1 ⟨t, ht⟩) (by decide)
  · exact hrefused'.1 ⟨s, hs⟩ rfl

end TenantQuery.Ingestion
