import TenantQuery.Proofs.Json.Entries
import TenantQuery.Proofs.Json.Node

namespace TenantQuery.Json

open Outcome

variable {σ α β : Type}

def Slot.Ensures (slot : Slot α) (P : α → Prop) : Prop :=
  ∀ earlier j a, slot earlier j = .ok a → P a

namespace Slot.Ensures

theorem trivial (slot : Slot α) : Ensures slot fun _ => True :=
  fun _ _ _ _ => True.intro

theorem kept {start : α} {read : Json → Except Error α} {P : α → Prop} (hstart : P start)
    (hread : ∀ j a, read j = .ok a → P a) : Ensures (Slot.kept start read) P := by
  intro earlier j a h
  cases j with
  | null =>
      simp only [Slot.kept] at h
      split at h
      · exact hread _ _ h
      · cases h
        exact hstart
  | bool _ | number _ | string _ | array _ | object _ => exact hread _ _ h

end Slot.Ensures

theorem holds_of_readInt {j : Json} {n : Int} (h : readInt j = .ok n) : Word.Holds n := by
  cases j with
  | number literal =>
      simp only [readInt] at h
      split at h
      · rename_i hint
        cases h
        unfold toInt64? at hint
        split at hint
        · cases hint
        · simp only [Option.ite_none_right_eq_some, Option.some.injEq] at hint
          exact hint.2 ▸ hint.1
      · cases h
  | null | bool _ | string _ | array _ | object _ => cases h

theorem isFinite_of_readDouble {j : Json} {x : Double} (h : readDouble j = .ok x) :
    x.isFinite = true := by
  cases j with
  | number literal =>
      simp only [readDouble] at h
      split at h
      · rename_i hdouble
        cases h
        exact isFinite_of_toDouble? hdouble
      · cases h
  | null | bool _ | string _ | array _ | object _ => cases h

namespace Slot.Ensures

theorem int : Ensures Slot.int Word.Holds :=
  kept (by decide) fun _ _ => holds_of_readInt

theorem double : Ensures Slot.double fun x => x.isFinite = true :=
  kept (by decide) fun _ _ => isFinite_of_readDouble

theorem optional {slot : Slot α} {P : α → Prop} (h : slot.Ensures P) :
    Ensures (Slot.optional slot) fun v => ∀ a ∈ v, P a := by
  intro earlier j v hv
  cases j with
  | null =>
      cases hv
      exact fun a ha => nomatch ha
  | bool _ | number _ | string _ | array _ | object _ =>
      obtain ⟨a, ha, rfl⟩ := map_eq_ok.1 hv
      intro a' ha'
      cases ha'
      exact h _ _ _ ha

theorem list {slot : Slot α} {P : α → Prop} (h : slot.Ensures P) :
    Ensures (Slot.list slot) fun v => ∀ as ∈ v, ∀ a ∈ as, P a := by
  have hitems (js : List Json) : ∀ earlier as, Slot.items slot earlier js = .ok as →
      ∀ a ∈ as, P a := by
    induction js with
    | nil =>
        intro earlier as has
        cases has
        simp
    | cons j js ih =>
        intro earlier as has
        rw [Slot.items] at has
        obtain ⟨a, ha, has⟩ := bind_eq_ok.1 has
        obtain ⟨as', has', has⟩ := bind_eq_ok.1 has
        cases has
        exact List.forall_mem_cons.2 ⟨h _ _ _ ha, ih _ _ has'⟩
  intro earlier j v hv
  cases j with
  | null =>
      cases hv
      intro as has
      cases has
  | array js =>
      obtain ⟨as, has, rfl⟩ := map_eq_ok.1 hv
      intro as' has'
      cases has'
      exact hitems js _ _ has
  | bool _ | number _ | string _ | object _ => cases hv

theorem exists_of_mem_entries {slot : Slot α} {ms : List (String × Json)}
    {entries : List (String × α)} (h : Slot.entries slot ms = .ok entries) :
    ∀ e ∈ entries, ∃ m ∈ ms, slot [] m.2 = .ok e.2 := by
  induction ms generalizing entries with
  | nil =>
      cases h
      simp
  | cons m ms ih =>
      rw [Slot.entries] at h
      obtain ⟨a, ha, h⟩ := bind_eq_ok.1 h
      obtain ⟨entries, hentries, h⟩ := bind_eq_ok.1 h
      cases h
      refine List.forall_mem_cons.2 ⟨⟨m, List.mem_cons_self, ha⟩, fun e he => ?_⟩
      obtain ⟨m', hm', heq⟩ := ih hentries e he
      exact ⟨m', List.mem_cons_of_mem m hm', heq⟩

/-- Keys are in order, and told apart. -/
theorem map {slot : Slot α} {P : α → Prop} (h : slot.Ensures P) : Ensures (Slot.map slot)
    fun v => ∀ entries ∈ v, Ordered entries ∧ ∀ e ∈ entries, P e.2 := by
  refine optional fun earlier j entries hread => ?_
  cases j with
  | object members =>
      obtain ⟨entries', hentries', rfl⟩ := map_eq_ok.1 hread
      refine ⟨ordered_sortMembers entries', fun e he => ?_⟩
      obtain ⟨m, -, hm⟩ := exists_of_mem_entries hentries' e (mem_of_mem_sortMembers he)
      exact h _ _ _ hm
  | null | bool _ | number _ | string _ | array _ => cases hread

end Slot.Ensures

def Member.Keeps (f : Member σ) (P : σ → Prop) : Prop :=
  ∀ earlier j s s', P s → f.write earlier j s = .ok s' → P s'

theorem Member.Keeps.lift {τ : Type} {f : Member τ} {P : τ → Prop} (h : f.Keeps P)
    (get : σ → τ) (put : σ → τ → σ) (hget : ∀ s t, get (put s t) = t) :
    (f.lift get put).Keeps fun s => P (get s) := by
  intro earlier j s s' hs hwrite
  obtain ⟨t, ht, rfl⟩ := map_eq_ok.1 hwrite
  rw [hget]
  exact h earlier j (get s) t hs ht

/-- Writing any of the fields keeps the property of a record. -/
def Keep (fields : List (Member σ)) (P : σ → Prop) : Prop :=
  ∀ f ∈ fields, f.Keeps P

namespace Keep

variable {fields : List (Member σ)} {P : σ → Prop} {name : String} {slot : Slot α}
  {set : σ → α → σ}

theorem nil : Keep [] P :=
  List.forall_mem_nil _

theorem of {Q : α → Prop} (hslot : slot.Ensures Q) (hset : ∀ s a, P s → Q a → P (set s a))
    (h : Keep fields P) : Keep (.of name slot set :: fields) P := by
  refine List.forall_mem_cons.2 ⟨fun earlier j s s' hs hwrite => ?_, h⟩
  obtain ⟨a, ha, rfl⟩ := map_eq_ok.1 hwrite
  exact hset s a hs (hslot _ _ _ ha)

theorem other (hset : ∀ s a, P s → P (set s a)) (h : Keep fields P) :
    Keep (.of name slot set :: fields) P :=
  of (.trivial slot) (fun s a hs _ => hset s a hs) h

end Keep

section Records

variable {fields : List (Member σ)} {P : σ → Prop}

theorem readFields_keeps (hfields : Keep fields P) {ms : List (String × Json)} :
    ∀ {written s s'}, P s → readFields fields written s ms = .ok s' → P s' := by
  induction ms with
  | nil =>
      intro written s s' hs h
      cases h
      exact hs
  | cons m ms ih =>
      intro written s s' hs h
      rw [readFields] at h
      split at h
      · exact ih hs h
      · rename_i f hf
        obtain ⟨s'', hwrite, h⟩ := bind_eq_ok.1 h
        exact ih (hfields f (mem_of_member? hf).1 _ _ _ _ hs hwrite) h

theorem Slot.Ensures.record (hfields : Keep fields P) {start : σ} (hstart : P start) :
    Ensures (Slot.record fields start) P := by
  intro earlier j s h
  cases j with
  | null => exact readFields_keeps hfields hstart h
  | object members => exact readFields_keeps hfields hstart h
  | bool _ | number _ | string _ | array _ => cases h

/-- What every field keeps holds of every record that is read. -/
theorem readRecord_keeps (hfields : Keep fields P) {start s : σ} {j : Json}
    (hstart : P start) (h : readRecord fields start j = .ok s) : P s :=
  Slot.Ensures.record hfields hstart _ _ _ h

end Records

/-- Whatever one of the forms reads has the property. -/
def Forms.Ensure (forms : Forms α) (P : α → Prop) : Prop :=
  ∀ f ∈ forms, ∀ j a, f.2 j = .ok a → P a

theorem Forms.Ensure.append {fs gs : Forms α} {P : α → Prop} (hf : fs.Ensure P)
    (hg : gs.Ensure P) : Forms.Ensure (fs ++ gs) P :=
  fun f h => (List.mem_append.1 h).elim (hf f) (hg f)

theorem exists_form_of_readNode {kind : String} {forms : Forms α} {j : Json} {a : α}
    (h : readNode kind forms (some j) = .ok a) : ∃ f ∈ forms, f.2 j = .ok a := by
  rw [readNode] at h
  split at h
  · cases h
  · rename_i type htype
    split at h
    · cases h
    · rename_i read hlookup
      obtain ⟨before, after, rfl, -⟩ := List.lookup_eq_some_iff.1 hlookup
      exact ⟨(type, read), by simp, mapError_eq_ok.1 h⟩

theorem readNode_ensures {kind : String} {forms : Forms α} {P : α → Prop} (h : forms.Ensure P)
    {raw : Option Json} {a : α} (hread : readNode kind forms raw = .ok a) : P a := by
  cases raw with
  | none => cases hread
  | some j =>
      obtain ⟨f, hf, ha⟩ := exists_form_of_readNode hread
      exact h f hf j a ha

theorem readNodes_ensures {read : Option Json → Except Error α} {P : α → Prop}
    (h : ∀ raw a, read raw = .ok a → P a) {raw : Option (List Json)} {v : Option (List α)}
    (hread : readNodes read raw = .ok v) : ∀ as ∈ v, ∀ a ∈ as, P a := by
  cases raw with
  | none =>
      cases hread
      exact fun as has => nomatch has
  | some js =>
      obtain ⟨as, has, rfl⟩ := map_eq_ok.1 hread
      intro as' has'
      cases has'
      intro a ha
      obtain ⟨j, -, hj⟩ := exists_of_mem_mapM has a ha
      exact h _ _ hj

theorem readOptionalNode_ensures {read : Option Json → Except Error α} {P : α → Prop}
    (h : ∀ raw a, read raw = .ok a → P a) {raw : Option Json} {v : Option α}
    (hread : readOptionalNode read raw = .ok v) : ∀ a ∈ v, P a := by
  cases raw with
  | none =>
      cases hread
      exact fun a ha => nomatch ha
  | some j =>
      cases j with
      | null =>
          cases hread
          exact fun a ha => nomatch ha
      | bool _ | number _ | string _ | array _ | object _ =>
          obtain ⟨a, ha, rfl⟩ := map_eq_ok.1 hread
          intro a' ha'
          cases ha'
          exact h _ _ ha

end TenantQuery.Json
