import TenantQuery.Ingestion.Task
import TenantQuery.Proofs.Ingestion.Schema

namespace TenantQuery.Ingestion

open Json Outcome

namespace InputSource

def settled (s : InputSource) : InputSource :=
  ⟨Text.normal s.dataSource, s.interval.settled, s.filter.map Filter.settled⟩

structure Fits (s : InputSource) : Prop where
  interval : s.interval.Dated
  filter : ∀ f ∈ s.filter, ∀ i ∈ f.windows, i.Dated

theorem soundNode_fields : SoundNode fields :=
  .of (by decide) (by simp [fields, Member.independent_of])

theorem fits_of_read {raw : Option Json} {s : InputSource} (h : read raw = .ok s) : s.Fits := by
  have hkeep : Keep fields fun w => w.interval.Dated :=
    .other (fun _ _ h => h) (.of (fun _ _ _ => Interval.dated_of_read) (fun _ _ _ h => h)
      (.other (fun _ _ h => h) .nil))
  refine readNode_ensures (P := Fits) ?_ h
  intro f hf j s hs
  rw [List.mem_singleton.1 hf] at hs
  obtain ⟨w, hw, hs⟩ := bind_eq_ok.1 hs
  obtain ⟨filter, hfilter, hs⟩ := bind_eq_ok.1 hs
  cases hs
  exact ⟨readRecord_keeps hkeep Interval.dated_zero hw, Filter.dated_of_readOptional hfilter⟩

theorem rereads {s : InputSource} (h : s.Fits) :
    Rereads encode (fun _ => read) s s.settled := by
  have hrereads (f : Filter) (hf : f ∈ s.filter) :
      Rereads Filter.encode Filter.readWithin f f.settled :=
    f.rereads (h.filter f hf)
  refine .of soundNode_fields {} (fun _ _ => rfl) rfl rfl (Text.normal_eq_self (by decide))
    (.of (codes_text _) (.of (Interval.codes h.interval) (.last (.rawSome (fun f hf =>
      ⟨(hrereads f hf).alike, (hrereads f hf).notNull⟩) rfl .nil)))) fun _ => ⟨_, rfl, ?_⟩
  intro hms j hj
  have hfilter : Filter.readOptional (s.filter.map fun f => f.encode.settled) =
      .ok s.settled.filter :=
    Query.readOptional_settled hrereads
      fun m (hm : m ∈ ifSome "filter" Filter.encode s.filter) => (hms m (by simp [hm])).1
  rw [readMembers, hj, ok_bind, hfilter]
  rfl

end InputSource

namespace Partitions

/-- Numbers that a document can hold. -/
def Fits : Partitions → Prop
  | .hashed numShards _ => ∀ n ∈ numShards, Word.Holds n
  | .dynamic maxRowsPerSegment maxTotalRows =>
    (∀ n ∈ maxRowsPerSegment, Word.Holds n) ∧ ∀ n ∈ maxTotalRows, Word.Holds n

def settled : Partitions → Partitions
  | .hashed numShards dimensions => .hashed numShards ((present dimensions).map (·.map Text.normal))
  | .dynamic maxRowsPerSegment maxTotalRows => .dynamic maxRowsPerSegment maxTotalRows

theorem soundNode_hashed : SoundNode hashedFields :=
  .of (by decide) (by simp [hashedFields, Member.independent_of])

theorem soundNode_dynamic : SoundNode dynamicFields :=
  .of (by decide) (by simp [dynamicFields, Member.independent_of])

theorem fits_of_read (raw : Option Json) (p : Partitions) (h : read raw = .ok p) : p.Fits := by
  have hhashed : Keep hashedFields fun w => ∀ n ∈ w.numShards, Word.Holds n :=
    .of (.optional .int) (fun _ _ _ h => h) (.other (fun _ _ h => h) .nil)
  have hdynamic : Keep dynamicFields
      fun w => (∀ n ∈ w.maxRowsPerSegment, Word.Holds n) ∧ ∀ n ∈ w.maxTotalRows, Word.Holds n :=
    .of (.optional .int) (fun _ _ h h' => ⟨h', h.2⟩)
      (.of (.optional .int) (fun _ _ h h' => ⟨h.1, h'⟩) .nil)
  refine readNode_ensures (P := Fits) ?_ h
  simp only [Forms.Ensure, forms, List.forall_mem_cons, List.not_mem_nil, false_implies,
    implies_true, map_eq_ok, and_true]
  constructor
  · rintro j _ ⟨w, hw, rfl⟩
    exact readRecord_keeps hhashed (by simp) hw
  · rintro j _ ⟨w, hw, rfl⟩
    exact readRecord_keeps hdynamic (by simp) hw

theorem rereads {p : Partitions} (h : p.Fits) : Rereads encode (fun _ => read) p p.settled := by
  cases p with
  | hashed numShards dimensions =>
      exact .of soundNode_hashed {} (fun _ _ => rfl) rfl rfl (Text.normal_eq_self (by decide))
        (.ifSame (fun n hn => codes_int (h n hn)) rfl
          (.last (.ifAny (fun _ _ s _ => codes_text s) rfl .nil)))
        fun _ => ⟨_, rfl, fun _ j hj => by rw [hj]; rfl⟩
  | dynamic maxRowsPerSegment maxTotalRows =>
      exact .of soundNode_dynamic {} (fun _ _ => rfl) rfl rfl (Text.normal_eq_self (by decide))
        (.ifSame (fun n hn => codes_int (h.1 n hn)) rfl
          (.last (.ifSame (fun n hn => codes_int (h.2 n hn)) rfl .nil)))
        fun _ => ⟨_, rfl, fun _ j hj => by rw [hj]; rfl⟩

end Partitions

namespace TuningConfig

structure Fits (c : TuningConfig) : Prop where
  partitions : ∀ p ∈ c.partitionsSpec, p.Fits
  maxNumConcurrentSubTasks : ∀ n ∈ c.maxNumConcurrentSubTasks, Word.Holds n
  maxRowsInMemory : ∀ n ∈ c.maxRowsInMemory, Word.Holds n

def settled (c : TuningConfig) : TuningConfig :=
  { c with partitionsSpec := c.partitionsSpec.map Partitions.settled }

theorem soundNode_fields : SoundNode fields :=
  .of (by decide) (by simp [fields, Member.independent_of])

theorem fits_of_read (raw : Option Json) (c : TuningConfig) (h : read raw = .ok c) : c.Fits := by
  have hkeep : Keep fields fun w => (∀ n ∈ w.config.maxNumConcurrentSubTasks, Word.Holds n) ∧
      ∀ n ∈ w.config.maxRowsInMemory, Word.Holds n :=
    .of (.optional .int) (fun _ _ h h' => ⟨h', h.2⟩) (.other (fun _ _ h => h)
      (.of (.optional .int) (fun _ _ h h' => ⟨h.1, h'⟩) (.other (fun _ _ h => h) .nil)))
  refine readNode_ensures (P := Fits) ?_ h
  intro f hf j c hc
  rw [List.mem_singleton.1 hf] at hc
  obtain ⟨w, hw, hc⟩ := bind_eq_ok.1 hc
  obtain ⟨partitions, hpartitions, hc⟩ := bind_eq_ok.1 hc
  cases hc
  obtain ⟨htasks, hrows⟩ := readRecord_keeps hkeep (by simp) hw
  exact ⟨readOptionalNode_ensures Partitions.fits_of_read hpartitions, htasks, hrows⟩

def written (c : TuningConfig) : Json :=
  tagged parallelType (ifSome "maxNumConcurrentSubTasks" ofInt c.maxNumConcurrentSubTasks ++
    (ifSome "forceGuaranteedRollup" .bool c.forceGuaranteedRollup ++
    (ifSome "maxRowsInMemory" ofInt c.maxRowsInMemory ++
    ifSome "partitionsSpec" Partitions.encode c.partitionsSpec)))

theorem reordered (c : TuningConfig) : Reordered c.written c.encode := by
  refine .mk ?_
  simp only [List.append_assoc]
  exact (perm_last_first _ _ _ _).cons _

theorem rereads {c : TuningConfig} (h : c.Fits) : Rereads encode (fun _ => read) c c.settled := by
  have hpartitions (p : Partitions) (hp : p ∈ c.partitionsSpec) :=
    Partitions.rereads (h.partitions p hp)
  have hordered : Rereads written (fun _ => read) c c.settled := by
    refine .of soundNode_fields {} (fun _ _ => rfl) rfl rfl (Text.normal_eq_self (by decide))
      (.ifSame (fun n hn => codes_int (h.maxNumConcurrentSubTasks n hn)) rfl
        (.ifSame (fun b _ => codes_flag b) rfl
        (.ifSame (fun n hn => codes_int (h.maxRowsInMemory n hn)) rfl
        (.last (.rawSome (fun p hp => ⟨(hpartitions p hp).alike, (hpartitions p hp).notNull⟩) rfl
          .nil))))) fun _ => ⟨_, rfl, ?_⟩
    intro hms j hj
    have hread : readOptionalNode Partitions.read
        (c.partitionsSpec.map fun p => p.encode.settled) = .ok c.settled.partitionsSpec :=
      Query.readOptional_settled hpartitions
        fun m (hm : m ∈ ifSome "partitionsSpec" Partitions.encode c.partitionsSpec) =>
          (hms m (by simp [hm])).1
    rw [readMembers, hj, ok_bind, hread]
    rfl
  exact hordered.reorder reordered

end TuningConfig

namespace BatchSource

def settled (s : BatchSource) : BatchSource :=
  { s with
    inputFormat := s.inputFormat.map InputFormat.settled
    inputSource := s.inputSource.settled }

theorem soundNode_fields : SoundNode fields :=
  .of (by decide) (by simp [fields, Member.independent_of])

theorem members_eq (s : BatchSource) : s.members =
    ifSome "inputFormat" InputFormat.encode s.inputFormat ++
      ("inputSource", s.inputSource.encode) :: (ifSome "appendToExisting" .bool s.appendToExisting ++
      ifSome "dropExisting" .bool s.dropExisting) := by
  simp only [members, List.append_assoc, List.cons_append, List.nil_append]

end BatchSource

namespace KinesisSource

structure Fits (s : KinesisSource) : Prop where
  replicas : ∀ n ∈ s.replicas, Word.Holds n
  taskCount : ∀ n ∈ s.taskCount, Word.Holds n

def settled (s : KinesisSource) : KinesisSource :=
  { s with
    stream := Text.normal s.stream
    inputFormat := s.inputFormat.map InputFormat.settled
    endpoint := s.endpoint.map Text.normal
    taskDuration := s.taskDuration.map Text.normal
    startDelay := s.startDelay.map Text.normal
    period := s.period.map Text.normal
    completionTimeout := s.completionTimeout.map Text.normal
    lateMessageRejectionPeriod := s.lateMessageRejectionPeriod.map Text.normal
    earlyMessageRejectionPeriod := s.earlyMessageRejectionPeriod.map Text.normal
    awsAssumedRoleArn := s.awsAssumedRoleArn.map Text.normal
    awsExternalId := s.awsExternalId.map Text.normal }

theorem soundNode_fields : SoundNode fields :=
  .of (by decide) (by simp [fields, Member.independent_of])

theorem keep_fields : Keep fields Fits := by
  unfold fields
  iterate 3 refine .other (fun _ _ h => ⟨h.replicas, h.taskCount⟩) ?_
  refine .of (.optional .int) (fun _ _ h h' => ⟨h', h.taskCount⟩) ?_
  refine .of (.optional .int) (fun _ _ h h' => ⟨h.replicas, h'⟩) ?_
  iterate 9 refine .other (fun _ _ h => ⟨h.replicas, h.taskCount⟩) ?_
  exact .nil

theorem members_eq (s : KinesisSource) : s.members = ("stream", .string s.stream) ::
    (ifSome "inputFormat" InputFormat.encode s.inputFormat ++
    (ifSome "endpoint" .string s.endpoint ++ (ifSome "replicas" ofInt s.replicas ++
    (ifSome "taskCount" ofInt s.taskCount ++ (ifSome "taskDuration" .string s.taskDuration ++
    (ifSome "startDelay" .string s.startDelay ++ (ifSome "period" .string s.period ++
    (ifSome "useEarliestSequenceNumber" .bool s.useEarliestSequenceNumber ++
    (ifSome "completionTimeout" .string s.completionTimeout ++
    (ifSome "lateMessageRejectionPeriod" .string s.lateMessageRejectionPeriod ++
    (ifSome "earlyMessageRejectionPeriod" .string s.earlyMessageRejectionPeriod ++
    (ifSome "awsAssumedRoleArn" .string s.awsAssumedRoleArn ++
    ifSome "awsExternalId" .string s.awsExternalId)))))))))))) := by
  simp only [members, List.append_assoc]

theorem writes {s : KinesisSource} (h : s.Fits) :
    Writes fields {} s.members s.settled.members s.settled := by
  have htext {v : Option String} (t : String) (_ : t ∈ v) := codes_text t
  rw [members_eq, members_eq]
  refine .of (codes_text _) (.ifSome (fun f _ => f.codes) rfl (.ifSome htext rfl ?_))
  refine .ifSame (fun n hn => codes_int (h.replicas n hn)) rfl ?_
  refine .ifSame (fun n hn => codes_int (h.taskCount n hn)) rfl ?_
  refine .ifSome htext rfl (.ifSome htext rfl (.ifSome htext rfl ?_))
  refine .ifSame (fun b _ => codes_flag b) rfl ?_
  refine .ifSome htext rfl (.ifSome htext rfl (.ifSome htext rfl (.ifSome htext rfl ?_)))
  exact .last (.ifSome htext rfl .nil)

end KinesisSource

namespace KafkaSource

structure Fits (s : KafkaSource) : Prop where
  consumerProperties : ∀ es ∈ s.consumerProperties, Ordered es
  taskCount : ∀ n ∈ s.taskCount, Word.Holds n
  replicas : ∀ n ∈ s.replicas, Word.Holds n

def settled (s : KafkaSource) : KafkaSource :=
  { s with
    topic := Text.normal s.topic
    inputFormat := s.inputFormat.map InputFormat.settled
    consumerProperties :=
      (present s.consumerProperties).map (settledKeyed .string Text.normal)
    taskDuration := s.taskDuration.map Text.normal }

theorem soundNode_fields : SoundNode fields :=
  .of (by decide) (by simp [fields, Member.independent_of])

theorem keep_fields : Keep fields Fits := by
  unfold fields
  iterate 2 refine .other (fun _ _ h => ⟨h.consumerProperties, h.taskCount, h.replicas⟩) ?_
  refine .of (.map (.trivial _)) (fun _ _ h h' => ⟨fun es hes => (h' es hes).1, h.taskCount,
    h.replicas⟩) ?_
  refine .of (.optional .int) (fun _ _ h h' => ⟨h.consumerProperties, h', h.replicas⟩) ?_
  refine .of (.optional .int) (fun _ _ h h' => ⟨h.consumerProperties, h.taskCount, h'⟩) ?_
  iterate 2 refine .other (fun _ _ h => ⟨h.consumerProperties, h.taskCount, h.replicas⟩) ?_
  exact .nil

theorem properties_eq (entries : Option (List (String × String))) :
    properties entries = ifKeyed "consumerProperties" .string entries := by
  match entries with
  | none | some [] | some (_ :: _) => rfl

theorem members_eq (s : KafkaSource) : s.members = ("topic", .string s.topic) ::
    (ifSome "inputFormat" InputFormat.encode s.inputFormat ++
    (ifKeyed "consumerProperties" .string s.consumerProperties ++
    (ifSome "taskCount" ofInt s.taskCount ++ (ifSome "replicas" ofInt s.replicas ++
    (ifSome "taskDuration" .string s.taskDuration ++
    ifSome "useEarliestOffset" .bool s.useEarliestOffset))))) := by
  simp only [members, properties_eq, List.append_assoc]

theorem writes {s : KafkaSource} (h : s.Fits) :
    Writes fields {} s.members s.settled.members s.settled := by
  rw [members_eq, members_eq]
  refine .of (codes_text _) (.ifSome (fun f _ => f.codes) rfl ?_)
  refine .ifKeyed (fun es hes => (h.consumerProperties es hes).nodup) (fun _ _ e _ => .string e.2)
    (fun _ _ e _ _ _ => by rw [settled_string]; rfl) rfl (.inr ⟨fun es _ => ?_, rfl⟩) ?_
  · cases es with
    | nil => exact .inl rfl
    | cons e es => exact .inr ⟨e, List.mem_cons_self, rfl⟩
  refine .ifSame (fun n hn => codes_int (h.taskCount n hn)) rfl ?_
  refine .ifSame (fun n hn => codes_int (h.replicas n hn)) rfl ?_
  exact .ifSome (fun t _ => codes_text t) rfl (.last (.ifSame (fun b _ => codes_flag b) rfl .nil))

end KafkaSource

namespace IOConfig

/-- Windows, numbers and tables that a document can hold. -/
def Fits : IOConfig → Prop
  | .batch s => s.inputSource.Fits
  | .kinesis s => s.Fits
  | .kafka s => s.Fits

/-- What the written form keeps of a source. -/
def settled : IOConfig → IOConfig
  | .batch s => .batch s.settled
  | .kinesis s => .kinesis s.settled
  | .kafka s => .kafka s.settled

theorem fits_of_read (raw : Option Json) (c : IOConfig) (h : read raw = .ok c) : c.Fits := by
  refine readNode_ensures (P := Fits) ?_ h
  simp only [Forms.Ensure, forms, List.forall_mem_cons, List.not_mem_nil, false_implies,
    implies_true, map_eq_ok, and_true]
  refine ⟨?_, ?_, ?_⟩
  · rintro j _ ⟨s, hs, rfl⟩
    obtain ⟨w, -, hs⟩ := bind_eq_ok.1 hs
    obtain ⟨source, hsource, hs⟩ := bind_eq_ok.1 hs
    cases hs
    exact (InputSource.fits_of_read hsource : source.Fits)
  · rintro j _ ⟨s, hs, rfl⟩
    exact readRecord_keeps KinesisSource.keep_fields ⟨by simp, by simp⟩ hs
  · rintro j _ ⟨s, hs, rfl⟩
    exact readRecord_keeps KafkaSource.keep_fields ⟨by simp, by simp, by simp⟩ hs

theorem normal_typeName (c : IOConfig) : Text.normal c.typeName = c.typeName := by
  cases c <;>
    · rw [typeName]
      exact Text.normal_eq_self (by decide)

theorem rereads {c : IOConfig} (h : c.Fits) : Rereads encode (fun _ => read) c c.settled := by
  cases c with
  | batch s =>
      have hsource : Rereads InputSource.encode (fun _ => InputSource.read) s.inputSource
          s.inputSource.settled := InputSource.rereads h
      have hwrites : Writes BatchSource.fields {} s.members s.settled.members
          ⟨s.inputFormat.map InputFormat.settled, some s.inputSource.encode.settled,
            s.appendToExisting, s.dropExisting⟩ := by
        rw [BatchSource.members_eq, BatchSource.members_eq]
        exact .ifSome (fun f _ => f.codes) rfl (.raw hsource.alike hsource.notNull
          (.ifSame (fun b _ => codes_flag b) rfl
          (.last (.ifSame (fun b _ => codes_flag b) rfl .nil))))
      refine .of BatchSource.soundNode_fields {} (fun _ _ => rfl) rfl rfl
        (normal_typeName _) hwrites fun fuel => ⟨_, rfl, fun hms j hj => ?_⟩
      obtain ⟨hsettles, hdepth⟩ := hms ("inputSource", s.inputSource.encode)
        (by simp [BatchSource.members])
      rw [BatchSource.read, hj, ok_bind, hsource.reads hsettles fuel hdepth]
      rfl
  | kinesis s =>
      exact .of KinesisSource.soundNode_fields {} (fun _ _ => rfl) rfl rfl
        (normal_typeName _) (KinesisSource.writes h)
        fun _ => ⟨_, rfl, fun _ j hj => by rw [hj]; rfl⟩
  | kafka s =>
      exact .of KafkaSource.soundNode_fields {} (fun _ _ => rfl) rfl rfl
        (normal_typeName _) (KafkaSource.writes h)
        fun _ => ⟨_, rfl, fun _ j hj => by rw [hj]; rfl⟩

end IOConfig

end TenantQuery.Ingestion
