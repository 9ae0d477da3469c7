import TenantQuery.Proofs.Ingestion.Source
import TenantQuery.Proofs.Json.Plain

namespace TenantQuery.Ingestion

open Json Outcome

namespace Spec

structure Fits (s : Spec) : Prop where
  ioConfig : ∀ c ∈ s.ioConfig, c.Fits
  tuningConfig : ∀ c ∈ s.tuningConfig, c.Fits
  dataSchema : s.dataSchema.Fits
  context : ∀ es ∈ s.context, Ordered es ∧ ∀ e ∈ es, e.2.Plain

/-- A context that is there and not empty has a value other than null. -/
def Telling (s : Spec) : Prop :=
  ∀ es ∈ s.context, es = [] ∨ ∃ e ∈ es, e.2.isNull = false

def settled (s : Spec) : Spec where
  ioConfig := s.ioConfig.map IOConfig.settled
  tuningConfig := s.tuningConfig.map TuningConfig.settled
  dataSchema := s.dataSchema.settled
  context := (present s.context).map (settledKeyed (fun j => j) replain)

theorem sound_fields : Sound fields :=
  .of (by decide) (by simp [fields, Member.independent_of])

theorem keep_fields : Keep fields
    fun w => w.dataSchema.Fits ∧ ∀ es ∈ w.context, Ordered es ∧ ∀ e ∈ es, e.2.Plain :=
  .other (fun _ _ h => h) (.other (fun _ _ h => h)
    (.of (fun _ _ _ => DataSchema.fits_of_read) (fun _ _ h h' => ⟨h', h.2⟩)
    (.of (.map fun _ _ _ => plain_of_plain) (fun _ _ h h' => ⟨h.1, h'⟩) .nil)))

theorem fits_of_read {j : Json} {s : Spec} (h : read j = .ok s) : s.Fits ∧ s.ioConfig.isSome := by
  obtain ⟨w, hw, h⟩ := bind_eq_ok.1 h
  obtain ⟨ioConfig, hio, h⟩ := bind_eq_ok.1 h
  obtain ⟨tuningConfig, htuning, h⟩ := bind_eq_ok.1 h
  cases h
  obtain ⟨hschema, hcontext⟩ :=
    readRecord_keeps keep_fields ⟨⟨by simp, by simp, by simp⟩, by simp⟩ hw
  refine ⟨⟨?_, ?_, hschema, hcontext⟩, rfl⟩
  · rintro c ⟨⟩
    exact IOConfig.fits_of_read _ _ hio
  · exact readOptionalNode_ensures TuningConfig.fits_of_read htuning

/-- The members of a specification that reads from `c`. -/
def members (s : Spec) (c : IOConfig) (context : List (String × Json)) : List (String × Json) :=
  ("ioConfig", c.encode) :: (ifSome "tuningConfig" TuningConfig.encode s.tuningConfig ++
    ("dataSchema", s.dataSchema.encode) :: context)

theorem contextMember_eq (context : Option (List (String × Json))) :
    contextMember context = ifKeyed "context" (fun j => j) context := by
  match context with
  | none | some [] => rfl
  | some (e :: es) => rw [contextMember, ifKeyed, keyed_self]

theorem encode_eq {s : Spec} {c : IOConfig} (hc : s.ioConfig = some c) :
    s.encode = .object (s.members c (ifKeyed "context" (fun j => j) s.context)) := by
  rw [encode, hc, contextMember_eq]
  simp only [members, Option.map_some, Option.getD_some, List.append_assoc, List.cons_append,
    List.nil_append]

section Reading

variable {s : Spec} {c : IOConfig}

theorem writes (h : s.Fits) (hc : s.ioConfig = some c)
    {again : List (String × Json)}
    (hagain : again = ifKeyed "context" (fun j => j) s.context ∨
      s.Telling ∧ again = ifKeyed "context" (fun j => j) s.settled.context) :
    Writes fields {} (s.members c (ifKeyed "context" (fun j => j) s.context))
      (s.settled.members c.settled again)
      ⟨some c.encode.settled, s.tuningConfig.map fun c => c.encode.settled, s.dataSchema.settled,
        s.settled.context⟩ := by
  have hio := IOConfig.rereads (h.ioConfig c hc)
  have htuning (t) (ht : t ∈ s.tuningConfig) := TuningConfig.rereads (h.tuningConfig t ht)
  refine .raw hio.alike hio.notNull ?_
  refine .rawSome (fun t ht => ⟨(htuning t ht).alike, (htuning t ht).notNull⟩) rfl ?_
  refine .of (DataSchema.codes h.dataSchema) ?_
  refine .last (.ifKeyed (fun es hes => (h.context es hes).1.nodup)
    (fun es hes e he => ((h.context es hes).2 e he).reread.1)
    (fun es hes e he _ hsettles => ((h.context es hes).2 e he).reread.2 hsettles) rfl hagain .nil)

theorem read_settled (h : s.Fits) (hc : s.ioConfig = some c) (hsettles : s.encode.Settles) :
    read s.encode.settled = .ok s.settled := by
  have hwrites := writes h hc (.inl rfl)
  have hkeys := hwrites.names_nodup sound_fields
  rw [encode_eq hc] at hsettles ⊢
  have hmember := ((settles_object hkeys).1 hsettles).1
  have hwire := readRecord_settled sound_fields hwrites (List.forall_mem_nil _) (List.Perm.refl _)
    hkeys hsettles
  have hio : IOConfig.read (some c.encode.settled) = .ok c.settled :=
    (IOConfig.rereads (h.ioConfig c hc)).reads (hmember _ List.mem_cons_self) _ (Nat.lt_succ_self _)
  have htuning : readOptionalNode TuningConfig.read
      (s.tuningConfig.map fun c => c.encode.settled) = .ok s.settled.tuningConfig :=
    Query.readOptional_settled (fun t ht => TuningConfig.rereads (h.tuningConfig t ht))
      fun m (hm : m ∈ ifSome "tuningConfig" TuningConfig.encode s.tuningConfig) =>
        hmember m (by simp [members, hm])
  simp only [List.nil_append] at hwire
  simp only [read, hwire, ok_bind, hio, htuning, pure_eq_ok, settled, hc, Option.map_some]

theorem proper (h : s.Fits) (hc : s.ioConfig = some c) : s.encode.Proper := by
  have hwrites := writes h hc (.inl rfl)
  rw [encode_eq hc]
  exact everywhere_object.2 ⟨hwrites.names_nodup sound_fields, hwrites.proper⟩

theorem settled_ioConfig (hc : s.ioConfig = some c) : s.settled.ioConfig = some c.settled := by
  rw [settled, hc, Option.map_some]

theorem alike (h : s.Fits) (hc : s.ioConfig = some c) (htelling : s.Telling) :
    Alike s.encode s.settled.encode := by
  have hwrites := writes h hc (.inr ⟨htelling, rfl⟩)
  rw [encode_eq hc, encode_eq (settled_ioConfig hc)]
  exact hwrites.alike (List.forall_mem_nil _) (hwrites.names_nodup sound_fields)

theorem settled_context (h : ¬ s.Telling) :
    ∃ e es, s.context = some (e :: es) ∧ s.settled.context = some [] := by
  simp only [Telling, not_forall, not_or, not_exists, not_and, Bool.not_eq_false] at h
  obtain ⟨es, hes, hne, hnull⟩ := h
  obtain ⟨e, es, rfl⟩ := List.exists_cons_of_ne_nil hne
  refine ⟨e, es, hes, ?_⟩
  rw [settled, show s.context = some (e :: es) from hes, present, Option.map_some,
    settledKeyed_eq_nil.2 hnull]

theorem encode_settled_of_not_telling (hc : s.ioConfig = some c) (h : ¬ s.Telling) :
    s.settled.encode = .object (s.settled.members c.settled []) := by
  obtain ⟨e, es, -, hcontext⟩ := settled_context h
  rw [encode_eq (settled_ioConfig hc), hcontext]
  rfl

theorem names_members (s : Spec) (c : IOConfig) :
    ((s.members c []).map (·.1)).Sublist ["ioConfig", "tuningConfig", "dataSchema"] := by
  obtain ⟨ioConfig, tuningConfig, dataSchema, context⟩ := s
  cases tuningConfig with
  | none => exact .cons_cons _ (.cons _ (.refl _))
  | some t => exact .refl _

theorem proper_settled (h : s.Fits) (hc : s.ioConfig = some c) : s.settled.encode.Proper := by
  by_cases htelling : s.Telling
  · exact (alike h hc htelling).proper'
  · have hproper := (writes h hc (.inl rfl)).proper'
    rw [encode_settled_of_not_telling hc htelling]
    refine everywhere_object.2 ⟨(s.settled.names_members c.settled).nodup (by decide), ?_⟩
    intro m hm
    refine hproper m ?_
    simp only [members, List.mem_cons, List.mem_append, List.not_mem_nil, or_false] at hm ⊢
    tauto

/-- A context that says nothing is written at first, but not once the specification is read. -/
theorem settled_ne_of_not_telling (h : s.Fits) (hc : s.ioConfig = some c)
    (hsettles : s.encode.Settles) (hagain : s.settled.encode.Settles) (htelling : ¬ s.Telling) :
    s.encode.settled ≠ s.settled.encode.settled := by
  intro heq
  have hkeys := (writes h hc (.inl rfl)).names_nodup sound_fields
  have hnames := s.settled.names_members c.settled
  have hkeys' := hnames.nodup (by decide)
  rw [encode_settled_of_not_telling hc htelling] at hagain heq
  rw [encode_eq hc] at hsettles heq
  obtain ⟨e, es, hcontext, -⟩ := settled_context htelling
  have hmem : ("context", .object (keyed (fun j => j) (e :: es))) ∈
      s.members c (ifKeyed "context" (fun j => j) s.context) := by
    simp [members, hcontext, ifKeyed]
  obtain ⟨n, hn, hname, -⟩ := exists_mem_of_settled_eq hkeys hkeys' hsettles hagain heq hmem rfl
  have hplain : ∀ name ∈ ["ioConfig", "tuningConfig", "dataSchema"],
      Text.normal name ≠ Text.normal "context" := by decide +kernel
  exact hplain n.1 (hnames.subset (List.mem_map_of_mem hn)) hname

end Reading

end Spec

namespace Task

def settled (t : Task) : Task :=
  ⟨t.id.map Text.normal, t.spec.settled⟩

theorem soundNode_fields : SoundNode fields :=
  .of (by decide) (by simp [fields, Member.independent_of])

theorem keep_fields :
    Keep fields fun t => t.spec.Fits ∧ (t.spec.ioConfig.isSome ∨ t.spec = {}) :=
  .other (fun _ _ h => h) (.of (fun _ _ _ => Spec.fits_of_read)
    (fun _ _ _ h => ⟨h.1, .inl h.2⟩) .nil)

theorem fits_of_read {raw : Option Json} {t : Task} (h : read raw = .ok t) :
    t.spec.Fits ∧ (t.spec.ioConfig.isSome ∨ t.spec = {}) := by
  refine readNode_ensures (P := fun t => t.spec.Fits ∧ (t.spec.ioConfig.isSome ∨ t.spec = {}))
    (fun f hf j a ha => ?_) h
  rw [List.mem_singleton.1 hf] at ha
  have hnone : Spec.Fits {} := ⟨by simp, by simp, ⟨by simp, by simp, by simp⟩, by simp⟩
  exact readRecord_keeps keep_fields ⟨hnone, .inr rfl⟩ ha

section Reading

variable {t : Task} {c : IOConfig}

/-- The specification is written again as `again`: for reading it does not matter how. -/
theorem writes (h : t.spec.Fits) (hc : t.spec.ioConfig = some c) {again : Spec}
    (hagain : Alike t.spec.encode again.encode) :
    Writes fields {} (ifSome "id" .string t.id ++ [("spec", t.spec.encode)])
      (ifSome "id" .string (t.id.map Text.normal) ++ [("spec", again.encode)]) t.settled :=
  have hspec : Codes Spec.encode (Slot.fresh Spec.read []) t.spec again t.spec.settled :=
    ⟨hagain, rfl, Spec.read_settled h hc⟩
  .ifSome (fun s _ => codes_text s) rfl (.of hspec .nil)

theorem writes_self (h : t.spec.Fits) (hc : t.spec.ioConfig = some c) :
    Writes fields {} (ifSome "id" .string t.id ++ [("spec", t.spec.encode)])
      (ifSome "id" .string (t.id.map Text.normal) ++ [("spec", t.spec.encode)]) t.settled :=
  writes h hc (.refl (Spec.proper h hc))

theorem read_settled (h : t.spec.Fits) (hc : t.spec.ioConfig = some c)
    (hsettles : t.encode.Settles) :
    read (some t.encode.settled) = .ok t.settled := by
  have hwrites := writes_self h hc
  have hmembers := hwrites.readRecord_tagged soundNode_fields hsettles
  exact hwrites.readNode_tagged soundNode_fields hsettles (Text.normal_eq_self (by decide)) rfl
    hmembers

theorem alike (h : t.spec.Fits) (hc : t.spec.ioConfig = some c) (htelling : t.spec.Telling) :
    Alike t.encode t.settled.encode :=
  (writes h hc (Spec.alike h hc htelling)).alike_tagged soundNode_fields parallelType

def members (t : Task) : List (String × Json) :=
  ("type", .string parallelType) :: (ifSome "id" .string t.id ++ [("spec", t.spec.encode)])

theorem names_members (t : Task) : (t.members.map (·.1)).Sublist ["type", "id", "spec"] := by
  obtain ⟨id, spec⟩ := t
  cases id with
  | none => exact .cons_cons _ (.cons _ (.refl _))
  | some s => exact .refl _

theorem nodup_members (t : Task) : (t.members.map (·.1)).Nodup :=
  t.names_members.nodup (by decide)

theorem mem_members_spec (t : Task) : ("spec", t.spec.encode) ∈ t.members := by
  simp [members]

theorem settles_spec (hsettles : t.encode.Settles) : t.spec.encode.Settles :=
  ((settles_object t.nodup_members).1 hsettles).1 _ t.mem_members_spec

theorem settled_spec_eq {t' : Task} (hsettles : t.encode.Settles) (hsettles' : t'.encode.Settles)
    (h : t.encode.settled = t'.encode.settled) : t.spec.encode.settled = t'.spec.encode.settled := by
  obtain ⟨n, hn, hname, heq⟩ := exists_mem_of_settled_eq t.nodup_members t'.nodup_members hsettles
    hsettles' h t.mem_members_spec rfl
  have hplain : ∀ name ∈ ["type", "id"], Text.normal name ≠ Text.normal "spec" := by decide +kernel
  rcases List.mem_cons.1 hn with rfl | hn
  · exact absurd hname (hplain _ (by simp))
  rcases List.mem_append.1 hn with hn | hn
  · obtain ⟨s, hs⟩ : ∃ s, n = ("id", .string s) := by
      cases hid : t'.id with
      | none => rw [hid] at hn; cases hn
      | some s => rw [hid] at hn; exact ⟨s, List.mem_singleton.1 hn⟩
    rw [hs] at hname
    exact absurd hname (hplain _ (by simp))
  · rw [List.mem_singleton.1 hn] at heq
    exact heq.symm

theorem proper_of_spec (h : t.spec.encode.Proper) : t.encode.Proper := by
  refine everywhere_object.2 ⟨t.nodup_members, List.forall_mem_cons.2 ⟨trivial, ?_⟩⟩
  refine List.forall_mem_append.2 ⟨?_, List.forall_mem_singleton.2 h⟩
  cases t.id with
  | none => exact List.forall_mem_nil _
  | some s => exact List.forall_mem_singleton.2 trivial

/-- A task is written the same once more if and only if its context says something, if it is
there. -/
theorem canonical_settled_iff (h : t.spec.Fits) (hc : t.spec.ioConfig = some c) {text : String}
    (hcanonical : t.encode.canonical = .ok text) :
    t.settled.encode.canonical = .ok text ↔ t.spec.Telling := by
  refine ⟨fun hagain => ?_, fun htelling => (alike h hc htelling).canonical_eq hcanonical⟩
  -- Equal texts are texts of equal values, of which only one has a context.
  by_contra htelling
  obtain ⟨-, hsettles, rfl⟩ := canonical_eq_ok.1 hcanonical
  obtain ⟨-, hsettles', htext⟩ := canonical_eq_ok.1 hagain
  have hproper : t.encode.Proper := proper_of_spec (Spec.proper h hc)
  have hproper' : t.settled.encode.Proper := proper_of_spec (Spec.proper_settled h hc)
  have heq : t.encode.settled = t.settled.encode.settled :=
    eq_of_writePlain_eq (hproper.spelled.proper hsettles.normalForm_eq).spelled
      (hproper'.spelled.proper hsettles'.normalForm_eq).spelled htext
  have hspec := settled_spec_eq hsettles hsettles' heq
  have hagain := settles_spec hsettles'
  exact Spec.settled_ne_of_not_telling h hc (settles_spec hsettles) hagain htelling hspec

theorem encode_none : ({} : Spec).encode =
    .object [("ioConfig", .null), ("dataSchema", .object [("dataSource", .string "")])] :=
  rfl

theorem proper_none : ({} : Spec).encode.Proper := by
  simp [encode_none, Everywhere, EverywhereMembers, IsTidy]

theorem not_read_none : (Spec.read ({} : Spec).encode.settled).isOk = false := by
  rw [encode_none]
  decide

theorem ioConfig_of_read (hnone : t.spec.ioConfig.isSome ∨ t.spec = {})
    (hsettles : t.encode.Settles) {t' : Task} (h : read (some t.encode.settled) = .ok t') :
    t.spec.ioConfig.isSome := by
  refine hnone.resolve_right fun hspec => ?_
  have hnames : ∀ m ∈ t.members, Text.normal m.1 = m.1 ∧ Exact fields m.1 := by
    intro m hm
    have hmem := t.names_members.subset (List.mem_map_of_mem hm)
    have hplain : ∀ name ∈ ["type", "id", "spec"], Text.normal name = name := by decide +kernel
    refine ⟨hplain m.1 hmem, ?_⟩
    rcases List.mem_cons.1 hmem with htype | hmem
    · rw [htype]
      exact exact_of_none (by decide +kernel)
    · exact soundNode_fields.exact hmem
  obtain ⟨f, hf, hmembers⟩ := exists_form_of_readNode h
  rw [List.mem_singleton.1 hf] at hmembers
  obtain ⟨s, hs⟩ := slot_of_readRecord_settled soundNode_fields.toSound t.nodup_members hnames
    hsettles hmembers (List.mem_cons_of_mem _ List.mem_cons_self) t.mem_members_spec rfl
  rw [hspec] at hs
  have hok := not_read_none
  rw [show Spec.read ({} : Spec).encode.settled = .ok s from hs] at hok
  cases hok

theorem parse_eq_ok {text : String} :
    parse text = .ok t ↔ ∃ j, Json.parse text = .ok j ∧ read (some j) = .ok t := by
  rw [← parseNode_eq_ok]
  unfold parse
  cases parseNode "task" read text <;> simp

/-- Of any task that is read from a text and has a canonical form: this is read if and only if the
task says where it reads from, and what is read has the same canonical form if and only if a context
that is there says something. -/
theorem canonical_readBack {text canonical : String} (h : parse text = .ok t)
    (hcanonical : t.encode.canonical = .ok canonical) :
    ((∃ t', parse canonical = .ok t') ↔ t.spec.ioConfig.isSome) ∧
      ∀ t', parse canonical = .ok t' → (t'.encode.canonical = .ok canonical ↔ t.spec.Telling) := by
  obtain ⟨j, -, hread⟩ := parse_eq_ok.1 h
  obtain ⟨hfits, hnone⟩ := fits_of_read hread
  have hsettles : t.encode.Settles := (canonical_eq_ok.1 hcanonical).2.1
  have hproper : t.encode.Proper := by
    refine proper_of_spec ?_
    rcases hnone with hsome | hspec
    · obtain ⟨c, hc⟩ := Option.isSome_iff_exists.1 hsome
      exact Spec.proper hfits hc
    · rw [hspec]
      exact proper_none
  have hparse {t' : Task} : parse canonical = .ok t' ↔ read (some t.encode.settled) = .ok t' := by
    simp only [parse_eq_ok, parse_canonical hproper hcanonical, Except.ok.injEq, exists_eq_left']
  simp only [hparse]
  refine ⟨⟨fun ⟨t', ht'⟩ => ioConfig_of_read hnone hsettles ht', fun hsome => ?_⟩, fun t' ht' => ?_⟩
  · obtain ⟨c, hc⟩ := Option.isSome_iff_exists.1 hsome
    exact ⟨_, read_settled hfits hc hsettles⟩
  · obtain ⟨c, hc⟩ := Option.isSome_iff_exists.1 (ioConfig_of_read hnone hsettles ht')
    rw [read_settled hfits hc hsettles] at ht'
    rw [← Except.ok.inj ht']
    exact canonical_settled_iff hfits hc hcanonical

end Reading

end Task

end TenantQuery.Ingestion
