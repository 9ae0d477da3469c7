import TenantQuery.Calendar.Relative
import TenantQuery.Proofs.Json.Fixed
import TenantQuery.Proofs.Json.Invariant
import TenantQuery.Proofs.Json.Verbatim

namespace TenantQuery

open Json Outcome

theorem Component.normal_name (c : Component) : Text.normal c.name = c.name := by
  cases c <;> exact Text.normal_eq_self (by decide)

theorem Component.read_encode_eq_ok {c c' : Component} :
    read c.encode = .ok c' ↔ c' = c ∧ c ≠ .unset := by
  cases c <;> cases c' <;>
    simp [read, readName, readWith, Slot.text, Slot.kept, readText, encode, name, ofName?, known]

theorem Position.normal_name (p : Position) : Text.normal p.name = p.name := by
  cases p <;> exact Text.normal_eq_self (by decide)

theorem Position.read_name_eq_ok {p p' : Position} :
    read (.string p.name) = .ok p' ↔ p' = p ∧ p ≠ .unset := by
  cases p <;> cases p' <;>
    simp [read, readName, readWith, Slot.text, Slot.kept, readText, name, ofName?]

namespace RelativeDate

/-- The unit and the position are said. -/
structure Complete (d : RelativeDate) : Prop where
  component : d.component ≠ .unset
  position : d.position ≠ .unset

theorem sound_fields : Sound fields :=
  .of (by decide) (by simp [fields, Member.independent_of])

theorem keep_offset : Keep fields fun d => Word.Holds d.offset :=
  .other (fun _ _ h => h) (.of .int (fun _ _ _ h => h) (.other (fun _ _ h => h) .nil))

theorem decodes {d : RelativeDate} (hoffset : Word.Holds d.offset) (h : d.Complete) :
    Decodes encode (Slot.record fields {} []) d d := by
  have hcomponent : Decodes Component.encode (Slot.fresh Component.read []) d.component
      d.component := ⟨rfl, Component.read_encode_eq_ok.2 ⟨rfl, h.component⟩⟩
  have hposition : Decodes .string (Slot.fresh Position.read []) d.position.name d.position :=
    ⟨rfl, Position.read_name_eq_ok.2 ⟨rfl, h.position⟩⟩
  exact Fills.decodes sound_fields rfl
    (.of hcomponent (.of (decodes_int hoffset) (.of hposition .nil)))

theorem complete_of_read {d d' : RelativeDate}
    (h : Slot.record fields {} [] d.encode = .ok d') : d.Complete := by
  have hkeys : ([("component", d.component.encode), ("offset", ofInt d.offset),
      ("position", .string d.position.name)].map (·.1)).Nodup := by simp
  have hnames : ∀ m ∈ [("component", d.component.encode), ("offset", ofInt d.offset),
      ("position", .string d.position.name)], Exact fields m.1 := by
    intro m hm
    refine sound_fields.exact ?_
    revert m
    simp [fields, Member.of]
  have hcomponent : ∃ c, Slot.fresh Component.read [] d.component.encode = .ok c :=
    slot_of_readRecord sound_fields hkeys hnames h List.mem_cons_self (by simp)
  have hposition : ∃ p, Slot.fresh Position.read [] (.string d.position.name) = .ok p :=
    slot_of_readRecord sound_fields hkeys hnames h
      (List.mem_cons_of_mem _ (List.mem_cons_of_mem _ List.mem_cons_self)) (by simp)
  obtain ⟨c, hc⟩ := hcomponent
  obtain ⟨p, hp⟩ := hposition
  exact ⟨(Component.read_encode_eq_ok.1 hc).2, (Position.read_name_eq_ok.1 hp).2⟩

theorem normalForm_encode (d : RelativeDate) : d.encode.normalForm = .ok d.encode := by
  have hstrict : Text.units "component" < Text.units "offset" ∧
      Text.units "component" < Text.units "position" ∧
      Text.units "offset" < Text.units "position" := by decide
  have hplain (name : String) (h : name ∈ ["component", "offset", "position"]) :
      Text.normal name = name := by
    refine Text.normal_eq_self ?_
    revert name
    decide
  have hoffset : (ofInt d.offset).normalForm = .ok (ofInt d.offset) :=
    normalForm_number_eq_ok.2 ⟨_, canonicalNumber_toString_int d.offset, rfl⟩
  have hcomponent : d.component.encode.normalForm = .ok d.component.encode := by
    rw [Component.encode, normalForm, Component.normal_name]
  have hposition : (string d.position.name).normalForm = .ok (.string d.position.name) := by
    rw [normalForm, Position.normal_name]
  refine normalForm_object_self (by simp [hstrict]) (by simpa using hplain) ?_
  simp only [List.forall_mem_cons]
  exact ⟨⟨rfl, hcomponent⟩, ⟨rfl, hoffset⟩, ⟨rfl, hposition⟩, List.forall_mem_nil _⟩

theorem proper_encode (d : RelativeDate) : d.encode.Proper := by
  have hoffset : (ofInt d.offset).Proper := isLiteral_toString_int d.offset
  refine everywhere_object.2 ⟨by simp [IsTidy], ?_⟩
  simp only [List.forall_mem_cons]
  exact ⟨trivial, hoffset, trivial, List.forall_mem_nil _⟩

end RelativeDate

namespace RelativeInterval

/-- Both dates are complete. -/
structure Complete (r : RelativeInterval) : Prop where
  start : r.start.Complete
  stop : r.stop.Complete

structure Fits (r : RelativeInterval) : Prop where
  start : Word.Holds r.start.offset
  stop : Word.Holds r.stop.offset

theorem sound_fields : Sound fields :=
  .of (by decide) (by simp [fields, Member.independent_of])

theorem keep_fields : Keep fields Fits := by
  have hdate : Slot.Ensures (Slot.record RelativeDate.fields {}) fun d => Word.Holds d.offset :=
    .record RelativeDate.keep_offset (by decide)
  exact .of hdate (fun _ _ h h' => ⟨h', h.stop⟩) (.of hdate (fun _ _ h h' => ⟨h.start, h'⟩) .nil)

theorem decodes {r : RelativeInterval} (hfits : r.Fits) (h : r.Complete) :
    Decodes encode (Slot.record fields {} []) r r :=
  Fills.decodes sound_fields rfl (.of (RelativeDate.decodes hfits.start h.start)
    (.of (RelativeDate.decodes hfits.stop h.stop) .nil))

theorem complete_of_read {r r' : RelativeInterval}
    (h : Slot.record fields {} [] r.encode = .ok r') : r.Complete := by
  have hkeys : ([("beginningDate", r.start.encode), ("endDate", r.stop.encode)].map (·.1)).Nodup := by
    simp
  have hnames : ∀ m ∈ [("beginningDate", r.start.encode), ("endDate", r.stop.encode)],
      Exact fields m.1 := by
    intro m hm
    refine sound_fields.exact ?_
    revert m
    simp [fields, Member.of]
  obtain ⟨d, hd⟩ := slot_of_readRecord sound_fields hkeys hnames h List.mem_cons_self
    List.mem_cons_self
  obtain ⟨d', hd'⟩ := slot_of_readRecord sound_fields hkeys hnames h
    (List.mem_cons_of_mem _ List.mem_cons_self) (List.mem_cons_of_mem _ List.mem_cons_self)
  exact ⟨RelativeDate.complete_of_read hd, RelativeDate.complete_of_read hd'⟩

theorem normalForm_encode (r : RelativeInterval) : r.encode.normalForm = .ok r.encode := by
  have hstrict : Text.units "beginningDate" < Text.units "endDate" := by decide
  have hplain (name : String) (h : name ∈ ["beginningDate", "endDate"]) :
      Text.normal name = name := by
    refine Text.normal_eq_self ?_
    revert name
    decide
  refine normalForm_object_self (by simp [hstrict]) (by simpa using hplain) ?_
  simp only [List.forall_mem_cons]
  exact ⟨⟨rfl, r.start.normalForm_encode⟩, ⟨rfl, r.stop.normalForm_encode⟩, List.forall_mem_nil _⟩

theorem proper_encode (r : RelativeInterval) : r.encode.Proper := by
  refine everywhere_object.2 ⟨by simp [IsTidy], ?_⟩
  simp only [List.forall_mem_cons]
  exact ⟨r.start.proper_encode, r.stop.proper_encode, List.forall_mem_nil _⟩

theorem codes {r : RelativeInterval} (hfits : r.Fits) (h : r.Complete) :
    Codes encode (Slot.record fields {} []) r r r :=
  (decodes hfits h).codes r.proper_encode r.normalForm_encode

end RelativeInterval

end TenantQuery
