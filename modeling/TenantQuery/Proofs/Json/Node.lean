import TenantQuery.Proofs.Json.Record

namespace TenantQuery.Json

open Outcome

variable {σ α : Type}

/-- Names without composed letters, no two of which differ only in the case of their letters. -/
def Sound.names (names : List String) : Bool :=
  decide (names.map foldName).Nodup && names.all fun name => name.toList.all (·.toNat < 0xc0)

theorem Sound.of {fields : List (Member σ)} (hnames : names (fields.map (·.name)) = true)
    (hindependent : fields.Pairwise Member.Independent) : Sound fields := by
  rw [names, Bool.and_eq_true, decide_eq_true_eq, List.map_map, List.all_map,
    List.all_eq_true] at hnames
  exact ⟨hnames.1, hnames.2, hindependent⟩

theorem SoundNode.of {fields : List (Member σ)}
    (hnames : Sound.names ("type" :: fields.map (·.name)) = true)
    (hindependent : fields.Pairwise Member.Independent) : SoundNode fields := by
  rw [Sound.names, Bool.and_eq_true, decide_eq_true_eq, List.map_cons, List.nodup_cons,
    List.all_cons, Bool.and_eq_true, List.map_map] at hnames
  obtain ⟨⟨htype, hdistinct⟩, -, hplain⟩ := hnames
  rw [List.all_map, List.all_eq_true] at hplain
  refine ⟨⟨hdistinct, hplain, hindependent⟩, fun f hf heq => htype ?_⟩
  exact List.mem_map.2 ⟨f, hf, heq⟩

theorem parseNode_eq_ok {kind : String} {read : Option Json → Except Error α} {text : String}
    {a : α} : parseNode kind read text = .ok a ↔ ∃ j, parse text = .ok j ∧ read (some j) = .ok a := by
  unfold parseNode
  cases parse text with
  | error cause => simp
  | ok j => simp

theorem soundNode_nil : SoundNode ([] : List (Member σ)) where
  distinct := .nil
  plain := by simp
  independent := .nil
  typeless := by simp

section Tagged

variable {ms : List (String × Json)}

theorem depth_lt_of_mem_tagged (type : String) {m : String × Json} (hm : m ∈ ms) :
    m.2.depth < (tagged type ms).depth := by
  have hle : membersDepth (("type", Json.string type) :: ms) ≤
      membersDepth (("type", Json.string type) :: ms) := Nat.le_refl _
  have := membersDepth_le_iff.1 hle m (List.mem_cons_of_mem _ hm)
  rw [tagged, depth]
  omega

theorem depth_lt_of_mem_array {items : List Json} {j : Json} (hj : j ∈ items) :
    j.depth < (array items).depth := by
  have hle : itemsDepth items ≤ itemsDepth items := Nat.le_refl _
  have := itemsDepth_le_iff.1 hle j hj
  rw [depth]
  omega

theorem isObject_tagged {type : String} (hkeys : ((("type", Json.string type) :: ms).map (·.1)).Nodup)
    (hsettles : (tagged type ms).Settles) : ∃ members, (tagged type ms).settled = object members :=
  ⟨_, settled_object hkeys hsettles⟩

end Tagged

/-- The node `a` is written by `encode`, `a'` is read from its normal form, and `a'` is written as
the same once more. The reader needs as much fuel as the node is deep. -/
structure Rereads (encode : α → Json) (read : Nat → Option Json → Except Error α) (a a' : α) :
    Prop where
  alike : Alike (encode a) (encode a')
  notNull : (encode a).isNull = false
  reads : (encode a).Settles → ∀ fuel, (encode a).depth < fuel →
    read fuel (some (encode a).settled) = .ok a'

section Reread

variable {encode : α → Json} {read : Nat → Option Json → Except Error α} {settle : α → α}

/-- A node is read back when the form that its type names takes its members. What stands in the
members settles, and is less deep than the node. -/
theorem Rereads.of {kind : String} {forms : Nat → Forms α} {fields : List (Member σ)} {w : σ}
    {type : String} {ms ms' : List (String × Json)} {a a' : α}
    (hsound : SoundNode fields) (start : σ)
    (hnode : ∀ fuel members, read (fuel + 1) (some (object members)) =
      readNode kind (forms fuel) (some (object members)))
    (ha : encode a = tagged type ms) (ha' : encode a' = tagged type ms')
    (htype : Text.normal type = type) (h : Writes fields start ms ms' w)
    (hform : ∀ fuel, ∃ readForm, (forms fuel).lookup type = some readForm ∧
      ((∀ m ∈ ms, m.2.Settles ∧ m.2.depth < fuel) → ∀ j, readRecord fields start j = .ok w →
        readForm j = .ok a')) :
    Rereads encode read a a' where
  alike := by
    rw [ha, ha']
    exact h.alike_tagged hsound type
  notNull := by
    rw [ha]
    rfl
  reads hsettles fuel hfuel := by
    rw [ha] at hsettles hfuel ⊢
    cases fuel with
    | zero => omega
    | succ fuel =>
        have hkeys : ((("type", Json.string type) :: ms).map (·.1)).Nodup := h.tagged_nodup hsound
        obtain ⟨readForm, hlookup, hread⟩ := hform fuel
        have hmembers : ∀ m ∈ ms, m.2.Settles ∧ m.2.depth < fuel := by
          intro m hm
          refine ⟨((settles_object hkeys).1 hsettles).1 m (List.mem_cons_of_mem _ hm), ?_⟩
          have := depth_lt_of_mem_tagged type hm
          omega
        have hform := hread hmembers _ (h.readRecord_tagged hsound hsettles)
        obtain ⟨members, hobject⟩ := isObject_tagged hkeys hsettles
        rw [hobject, hnode, ← hobject]
        exact h.readNode_tagged hsound hsettles htype hlookup hform

theorem Rereads.read_some {a a' : α} (h : Rereads encode read a a')
    (hsettles : (encode a).Settles) :
    read (depthOf (some (encode a).settled) + 1) (some (encode a).settled) = .ok a' := by
  refine h.reads hsettles _ ?_
  rw [depthOf, h.alike.proper.depth_eq hsettles.normalForm_eq]
  exact Nat.lt_succ_self _

theorem readNodes_map {readOne : Option Json → Except Error α} {as : List α}
    (h : ∀ a ∈ as, readOne (some (encode a).settled) = .ok (settle a)) :
    readNodes readOne (some (as.map fun a => (encode a).settled)) = .ok (some (as.map settle)) := by
  have hread : (as.map fun a => (encode a).settled).mapM (fun j => readOne (some j)) =
      .ok (as.map settle) := by
    induction as with
    | nil => rfl
    | cons a as ih =>
        obtain ⟨ha, has⟩ := List.forall_mem_cons.1 h
        simp only [List.map_cons, List.mapM_cons, ha, ih has, ok_bind, pure_eq_ok]
  rw [readNodes, hread]
  rfl

theorem settles_of_mem_map {as : List α} (h : (array (as.map encode)).Settles) :
    ∀ a ∈ as, (encode a).Settles :=
  fun _ ha => settles_array.1 h _ (List.mem_map_of_mem ha)

theorem readNodes_settled {as : List α} {fuel : Nat}
    (h : ∀ a ∈ as, Rereads encode read a (settle a))
    (hmembers : (array (as.map encode)).Settles ∧ (array (as.map encode)).depth < fuel) :
    readNodes (read fuel) (some (as.map fun a => (encode a).settled)) =
      .ok (some (as.map settle)) := by
  obtain ⟨hsettles, hdepth⟩ := hmembers
  refine readNodes_map fun a ha => (h a ha).reads (settles_of_mem_map hsettles a ha) fuel ?_
  exact Nat.lt_trans (depth_lt_of_mem_array (List.mem_map_of_mem ha)) hdepth

theorem readOptionalNode_map {readOne : Option Json → Except Error α} {v : Option α}
    (h : ∀ a ∈ v, (encode a).isNull = false ∧
      readOne (some (encode a).settled) = .ok (settle a)) :
    readOptionalNode readOne (v.map fun a => (encode a).settled) = .ok (v.map settle) := by
  cases v with
  | none => rfl
  | some a =>
      obtain ⟨hnull, hread⟩ := h a rfl
      have hnull' : (encode a).settled.isNull = false := (isNull_settled _).trans hnull
      rw [Option.map_some, Option.map_some]
      cases hsettled : (encode a).settled with
      | null => simp [hsettled, isNull] at hnull'
      | bool _ | number _ | string _ | array _ | object _ =>
          rw [hsettled] at hread
          simp only [readOptionalNode, hread, map_ok]

end Reread

inductive Reordered : Json → Json → Prop
  | mk {ms ns : List (String × Json)} (perm : ms.Perm ns) : Reordered (.object ms) (.object ns)

namespace Reordered

variable {j k : Json}

theorem symm (h : Reordered j k) : Reordered k j := by
  obtain ⟨hperm⟩ := h
  exact .mk hperm.symm

theorem isNull_eq_false (h : Reordered j k) : k.isNull = false := by
  obtain ⟨-⟩ := h
  rfl

theorem proper (h : Reordered j k) (hj : j.Proper) : k.Proper := by
  obtain ⟨hperm⟩ := h
  obtain ⟨hkeys, hmembers⟩ := everywhere_object.1 hj
  exact everywhere_object.2
    ⟨(hperm.map _).nodup_iff.1 hkeys, fun m hm => hmembers m (hperm.mem_iff.2 hm)⟩

theorem normalForm_eq (h : Reordered j k) (hj : j.Proper) (hsettles : j.Settles) :
    k.normalForm = j.normalForm := by
  have hk := h.proper hj
  obtain ⟨hperm⟩ := h
  have hkeys := (everywhere_object.1 hj).1
  have hvalues := ((settles_object hkeys).1 hsettles).1
  exact normalForm_object_congr hkeys (everywhere_object.1 hk).1 hsettles
    (fun m hm => hvalues m (hperm.mem_iff.2 hm)) ((hperm.filter _).map _)

theorem settles (h : Reordered j k) (hj : j.Proper) (hsettles : j.Settles) : k.Settles :=
  (settles_congr (h.normalForm_eq hj hsettles)).2 hsettles

end Reordered

theorem perm_last_first (as bs cs ds : List (String × Json)) :
    (as ++ (bs ++ (cs ++ ds))).Perm (ds ++ (as ++ (bs ++ cs))) := by
  have hswap : (as ++ (bs ++ cs) ++ ds).Perm (ds ++ (as ++ (bs ++ cs))) := List.perm_append_comm
  simpa only [List.append_assoc] using hswap

theorem Alike.reorder {j j' k k' : Json} (h : Alike j j') (hj : Reordered j k)
    (hj' : Reordered j' k') : Alike k k' := by
  have hproper := hj.proper h.proper
  refine ⟨hproper, hj'.proper h.proper', fun hsettles => ?_⟩
  have hsettle : j.Settles := hj.symm.settles hproper hsettles
  have hform := h.normalForm_eq hsettle
  rw [hj'.normalForm_eq h.proper' ((settles_congr hform).2 hsettle), hform,
    hj.symm.normalForm_eq hproper hsettles]

theorem Codes.reorder {β : Type} {encode encode' : α → Json} {read : Json → Except Error β}
    {a a' : α} {b : β} (h : Codes encode' read a a' b)
    (hordered : ∀ a, Reordered (encode' a) (encode a)) : Codes encode read a a' b where
  alike := h.alike.reorder (hordered a) (hordered a')
  notNull := (hordered a).isNull_eq_false
  reads hsettles := by
    have hproper := (hordered a).proper h.alike.proper
    have hform := (hordered a).symm.normalForm_eq hproper hsettles
    rw [← hsettles.settled_eq_of hform]
    exact h.reads ((settles_congr hform).2 hsettles)

theorem Rereads.reorder {encode encode' : α → Json}
    {read : Nat → Option Json → Except Error α} {a a' : α} (h : Rereads encode' read a a')
    (hordered : ∀ a, Reordered (encode' a) (encode a)) : Rereads encode read a a' where
  alike := h.alike.reorder (hordered a) (hordered a')
  notNull := (hordered a).isNull_eq_false
  reads hsettles fuel hfuel := by
    have hproper := (hordered a).proper h.alike.proper
    have hform := (hordered a).symm.normalForm_eq hproper hsettles
    have hdepth : (encode' a).depth = (encode a).depth := by
      rw [← h.alike.proper.depth_eq (hform.trans hsettles.normalForm_eq),
        hproper.depth_eq hsettles.normalForm_eq]
    rw [← hdepth] at hfuel
    rw [← hsettles.settled_eq_of hform]
    exact h.reads ((settles_congr hform).2 hsettles) fuel hfuel

end TenantQuery.Json
