import TenantQuery.Proofs.Json.Invariant

namespace TenantQuery

/-- Kinds and types of the nodes that an error reports, the outermost first. -/
def Error.reports : Error → List (String × String)
  | .node kind type cause => (kind, type) :: cause.reports
  | .within _ cause => cause.reports
  | .document _ cause => cause.reports
  | _ => []

theorem Error.nodeFault?_isSome {e : Error} : e.nodeFault?.isSome = true ↔ e.reports ≠ [] := by
  induction e with
  | within context cause ih => exact ih
  | document path cause ih => exact ih
  | _ => simp [nodeFault?, reports]

def Quiet {α : Type} (x : Except Error α) : Prop :=
  ∀ e, x = .error e → e.reports = []

namespace Quiet

variable {α β : Type} {x : Except Error α}

theorem ok (a : α) : Quiet (.ok a : Except Error α) :=
  fun _ h => nomatch h

theorem error {e : Error} (h : e.reports = []) : Quiet (.error e : Except Error α) := by
  rintro _ ⟨⟩
  exact h

theorem map (h : Quiet x) (f : α → β) : Quiet (x.map f) := by
  cases x with
  | error e => exact .error (h e rfl)
  | ok a => exact .ok _

theorem within (h : Quiet x) (context : String) : Quiet (x.mapError (.within context)) := by
  cases x with
  | error e => exact .error (h e rfl)
  | ok a => exact .ok a

theorem bind {f : α → Except Error β} (h : Quiet x) (hf : ∀ a, Quiet (f a)) : Quiet (x >>= f) := by
  cases x with
  | error e => exact .error (h e rfl)
  | ok a => exact hf a

end Quiet

namespace Json

open Outcome

variable {σ α : Type}

theorem quiet_readText (j : Json) : Quiet (readText j) := by
  cases j with
  | string s => exact .ok s
  | null | bool _ | number _ | array _ | object _ => exact .error rfl

theorem quiet_readFlag (j : Json) : Quiet (readFlag j) := by
  cases j with
  | bool b => exact .ok b
  | null | string _ | number _ | array _ | object _ => exact .error rfl

theorem quiet_readInt (j : Json) : Quiet (readInt j) := by
  cases j with
  | number literal =>
      rw [readInt]
      split
      · exact .ok _
      · exact .error rfl
  | null | bool _ | string _ | array _ | object _ => exact .error rfl

theorem quiet_readDouble (j : Json) : Quiet (readDouble j) := by
  cases j with
  | number literal =>
      rw [readDouble]
      split
      · exact .ok _
      · exact .error rfl
  | null | bool _ | string _ | array _ | object _ => exact .error rfl

def Slot.Quiet (slot : Slot α) : Prop :=
  ∀ earlier j, TenantQuery.Quiet (slot earlier j)

def Member.Quiet (f : Member σ) : Prop :=
  ∀ earlier j s, TenantQuery.Quiet (f.write earlier j s)

namespace Slot.Quiet

theorem kept {start : α} {read : Json → Except Error α} (h : ∀ j, TenantQuery.Quiet (read j)) :
    Slot.Quiet (Slot.kept start read) := by
  intro earlier j
  cases j with
  | null =>
      rw [Slot.kept]
      split
      · exact h _
      · exact .ok start
  | bool _ | number _ | string _ | array _ | object _ => exact h _

@[simp] theorem text : Slot.Quiet Slot.text := kept quiet_readText

@[simp] theorem flag : Slot.Quiet Slot.flag := kept quiet_readFlag

@[simp] theorem int : Slot.Quiet Slot.int := kept quiet_readInt

@[simp] theorem double : Slot.Quiet Slot.double := kept quiet_readDouble

@[simp] theorem raw : Slot.Quiet Slot.raw :=
  fun _ j => .ok (some j)

@[simp] theorem optional {slot : Slot α} (h : slot.Quiet) : Slot.Quiet (Slot.optional slot) := by
  intro earlier j
  cases j with
  | null => exact .ok none
  | bool _ | number _ | string _ | array _ | object _ => exact (h _ _).map some

theorem items {slot : Slot α} (h : slot.Quiet) (earlier : List (List Json)) (js : List Json) :
    TenantQuery.Quiet (Slot.items slot earlier js) := by
  induction js generalizing earlier with
  | nil => exact .ok []
  | cons j js ih => exact (h _ j).bind fun a => (ih _).bind fun as => .ok (a :: as)

@[simp] theorem list {slot : Slot α} (h : slot.Quiet) : Slot.Quiet (Slot.list slot) := by
  intro earlier j
  cases j with
  | null => exact .ok none
  | array js => exact (items h _ js).map some
  | bool _ | number _ | string _ | object _ => exact .error rfl

@[simp] theorem rawItems : Slot.Quiet Slot.rawItems :=
  list fun _ j => .ok j

end Slot.Quiet

@[simp] theorem Member.Quiet.of {slot : Slot α} (h : slot.Quiet) (name : String) (set : σ → α → σ) :
    Member.Quiet (.of name slot set) :=
  fun earlier j s => (h earlier j).map (set s)

section Records

variable {fields : List (Member σ)}

theorem quiet_readFields (h : ∀ f ∈ fields, f.Quiet) (ms : List (String × Json)) :
    ∀ written s, Quiet (readFields fields written s ms) := by
  induction ms with
  | nil => exact fun _ s => .ok s
  | cons m ms ih =>
      intro written s
      rw [readFields]
      split
      · exact ih written s
      · rename_i f hf
        exact (h f (mem_of_member? hf).1 _ _ _).bind fun s' => ih _ s'

theorem Slot.Quiet.record (h : ∀ f ∈ fields, f.Quiet) (start : σ) :
    Slot.Quiet (Slot.record fields start) := by
  intro earlier j
  cases j with
  | null => exact quiet_readFields h _ _ _
  | object members => exact quiet_readFields h _ _ _
  | bool _ | number _ | string _ | array _ => exact .error rfl

theorem quiet_readRecord (h : ∀ f ∈ fields, f.Quiet) (start : σ) (j : Json) :
    Quiet (readRecord fields start j) :=
  Slot.Quiet.record h start [] j

end Records

/-- The values of the members of a name, whatever the case of its letters. -/
def spelled (name : String) (members : List (String × Json)) : List Json :=
  members.filterMap fun m => if foldName m.1 = foldName name then some m.2 else none

def lastAt (j : Json) (name : String) : Option Json :=
  (spelled name (j.members?.getD [])).getLast?

def text? : Json → Option String
  | .string s => some s
  | _ => none

def items? : Json → Option (List Json)
  | .array items => some items
  | _ => none

/-- The items of the array that a member is. There are none if it is absent or no array. -/
def itemsAt (j : Json) (name : String) : List Json :=
  ((j.lastAt name).bind items?).getD []

/-- The type that a node names. It is empty when none is named, or some spelling of it is no text. -/
def discriminator (j : Json) : String :=
  if (spelled "type" (j.members?.getD [])).all fun v => v.isNull || v.text?.isSome then
    ((j.lastAt "type").bind text?).getD ""
  else ""

theorem spelled_cons (name : String) (m : String × Json) (ms : List (String × Json)) :
    spelled name (m :: ms) =
      if foldName m.1 = foldName name then m.2 :: spelled name ms else spelled name ms := by
  by_cases h : foldName m.1 = foldName name <;> simp [spelled, h]

theorem mem_of_spelled {name : String} {ms : List (String × Json)} {j : Json}
    (h : j ∈ spelled name ms) : ∃ m ∈ ms, m.2 = j := by
  obtain ⟨m, hm, hj⟩ := List.mem_filterMap.1 h
  rw [Option.ite_none_right_eq_some] at hj
  exact ⟨m, hm, Option.some.inj hj.2⟩

theorem elim_getLast?_cons {β : Type} (v : Json) (vs : List Json) (b : β) (f : Json → β) :
    (v :: vs).getLast?.elim b f = vs.getLast?.elim (f v) f := by
  rw [List.getLast?_cons]
  cases vs.getLast? <;> rfl

/-- Writing a field sets what is seen through `get` if the field has the name, and leaves it as it
is otherwise. -/
def Member.Tracks (f : Member σ) (name : String) (get : σ → α) (value : Json → α) : Prop :=
  ∀ earlier j s s', f.write earlier j s = .ok s' →
    get s' = if f.name = name then value j else get s

@[simp] theorem Member.tracks_of_ne {β : Type} {name name' : String} {slot : Slot β}
    {set : σ → β → σ} {get : σ → α} {value : Json → α} (hne : name' ≠ name)
    (hset : ∀ s b, get (set s b) = get s) : Tracks (.of name' slot set) name get value := by
  intro earlier j s s' hwrite
  obtain ⟨b, -, rfl⟩ := map_eq_ok.1 hwrite
  exact (hset s b).trans (if_neg hne).symm

@[simp] theorem Member.tracks_raw {name : String} {set : σ → Option Json → σ}
    {get : σ → Option Json} (hset : ∀ s v, get (set s v) = v) :
    Tracks (.of name Slot.raw set) name get some := by
  intro earlier j s s' hwrite
  cases hwrite
  exact (hset s (some j)).trans (if_pos rfl).symm

theorem items_raw (earlier : List (List Json)) (js : List Json) :
    Slot.items (fun _ j => .ok j) earlier js = .ok js := by
  induction js generalizing earlier with
  | nil => rfl
  | cons j js ih =>
      rw [Slot.items, ok_bind, ih, ok_bind]
      rfl

@[simp] theorem Member.tracks_rawItems {name : String} {set : σ → Option (List Json) → σ}
    {get : σ → Option (List Json)} (hset : ∀ s v, get (set s v) = v) :
    Tracks (.of name Slot.rawItems set) name get items? := by
  intro earlier j s s' hwrite
  obtain ⟨v, hv, rfl⟩ := map_eq_ok.1 hwrite
  have hvalue : v = items? j := by
    cases j with
    | null =>
        cases hv
        rfl
    | array js =>
        rw [Slot.rawItems, Slot.list, items_raw] at hv
        cases hv
        rfl
    | bool _ | number _ | string _ | object _ => cases hv
  rw [hset, hvalue]
  exact (if_pos rfl).symm

/-- A field of a record, seen through `get`, is the value of the last member of its name. -/
structure Tracks (fields : List (Member σ)) (name : String) (get : σ → α) (value : Json → α) :
    Prop where
  sound : Sound fields
  named : name ∈ fields.map (·.name)
  writes : ∀ f ∈ fields, f.Tracks name get value

section Tracks

variable {fields : List (Member σ)} {name : String} {get : σ → α} {value : Json → α}

theorem Tracks.name_eq_iff (h : Tracks fields name get value) {f : Member σ} (hf : f ∈ fields) :
    f.name = name ↔ foldName f.name = foldName name := by
  refine ⟨fun heq => by rw [heq], fun hfold => ?_⟩
  obtain ⟨g, hg, rfl⟩ := List.mem_map.1 h.named
  rw [List.inj_on_of_nodup_map h.sound.distinct hf hg hfold]

theorem Tracks.readFields (h : Tracks fields name get value) {ms : List (String × Json)} :
    ∀ written {s s'}, Json.readFields fields written s ms = .ok s' →
      get s' = (spelled name ms).getLast?.elim (get s) value := by
  induction ms with
  | nil =>
      intro written s s' hread
      cases hread
      rfl
  | cons m ms ih =>
      intro written s s' hread
      rw [Json.readFields] at hread
      rw [spelled_cons]
      split at hread
      · rename_i hnone
        -- A member that no field takes is not one of the name.
        have hne : foldName m.1 ≠ foldName name := by
          obtain ⟨f, hf, rfl⟩ := List.mem_map.1 h.named
          have := List.find?_eq_none.1 hnone f hf
          exact Ne.symm (by simpa using this)
        rw [if_neg hne]
        exact ih written hread
      · rename_i f hf
        obtain ⟨hmem, hfold⟩ := mem_of_member? hf
        obtain ⟨t, hwrite, hread⟩ := bind_eq_ok.1 hread
        have hstep := h.writes f hmem _ _ _ _ hwrite
        have hname : f.name = name ↔ foldName m.1 = foldName name := by
          rw [h.name_eq_iff hmem, hfold]
        rw [ih _ hread, hstep]
        by_cases hm : foldName m.1 = foldName name
        · rw [if_pos hm, if_pos (hname.2 hm), elim_getLast?_cons]
        · rw [if_neg hm, if_neg (mt hname.1 hm)]

theorem Tracks.readRecord (h : Tracks fields name get value) {start s : σ} {j : Json}
    (hread : Json.readRecord fields start j = .ok s) :
    get s = (j.lastAt name).elim (get start) value := by
  cases j with
  | null => exact h.readFields [] hread
  | object members => exact h.readFields [] hread
  | bool _ | number _ | string _ | array _ => cases hread

theorem Tracks.raw {get : σ → Option Json} (h : Tracks fields name get some) {start s : σ}
    (hstart : get start = none) {j : Json} (hread : Json.readRecord fields start j = .ok s) :
    get s = j.lastAt name := by
  rw [h.readRecord hread, hstart]
  cases j.lastAt name <;> rfl

theorem Tracks.rawItems {get : σ → Option (List Json)} (h : Tracks fields name get items?)
    {start s : σ} (hstart : get start = none) {j : Json}
    (hread : Json.readRecord fields start j = .ok s) : (get s).getD [] = j.itemsAt name := by
  rw [h.readRecord hread, hstart, itemsAt]
  cases j.lastAt name <;> rfl

end Tracks

theorem readFields_typeFields (ms : List (String × Json)) : ∀ written s,
    readFields typeFields written s ms =
      if (spelled "type" ms).all fun v => v.isNull || v.text?.isSome then
        .ok ((spelled "type" ms).getLast?.elim s text?)
      else .error .mistyped := by
  induction ms with
  | nil => exact fun _ _ => rfl
  | cons m ms ih =>
      intro written s
      obtain ⟨key, v⟩ := m
      rw [readFields, spelled_cons]
      by_cases hkey : foldName key = foldName "type"
      · have hmember : member? typeFields key = some (.of "type" (Slot.optional Slot.text)
            fun _ type => type) := by
          simp [member?, typeFields, Member.of, hkey]
        rw [hmember, if_pos hkey, elim_getLast?_cons]
        cases v with
        | null | string _ => exact ih _ _
        | bool _ | number _ | array _ | object _ => rfl
      · have hmember : member? typeFields key = none := by
          simp [member?, typeFields, Member.of, Ne.symm hkey]
        rw [hmember, if_neg hkey]
        exact ih written s

/-- The type that is read is the discriminator. A type that cannot be read is reported without one,
and then there is none. -/
theorem readType_spec (kind : String) (j : Json) :
    readType kind j = .ok j.discriminator ∨
      ∃ e, readType kind j = .error e ∧ e.reports = [(kind, j.discriminator)] := by
  have hread : readRecord typeFields none j = readFields typeFields [] none (j.members?.getD []) ∨
      j.members?.getD [] = [] ∧ readRecord typeFields none j = .error .mistyped := by
    cases j with
    | null | object _ => exact .inl rfl
    | bool _ | number _ | string _ | array _ => exact .inr ⟨rfl, rfl⟩
  rw [readType, discriminator, lastAt]
  rcases hread with hread | ⟨hnone, hread⟩
  · rw [hread, readFields_typeFields]
    split_ifs
    · cases hlast : (spelled "type" (j.members?.getD [])).getLast? with
      | none => exact .inr ⟨_, rfl, rfl⟩
      | some v =>
          cases v with
          | string s => exact .inl rfl
          | null | bool _ | number _ | array _ | object _ => exact .inr ⟨_, rfl, rfl⟩
    · exact .inr ⟨_, rfl, rfl⟩
  · rw [hread, hnone]
    exact .inr ⟨_, rfl, rfl⟩

end Json

end TenantQuery
