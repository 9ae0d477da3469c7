import TenantQuery.Proofs.Json.Normal
import TenantQuery.Proofs.Number.Overflow

namespace TenantQuery

theorem Text.units_lt {a b : String} (hle : unitsLe a b = true) (hne : a ≠ b) :
    units a < units b := by
  have hmaps : lexLe ((units a).map id) ((units b).map id) = true := by
    rw [List.map_id, List.map_id]
    exact hle
  exact lt_of_lexLe Function.injective_id id hmaps fun heq => hne (units_injective heq)

namespace Json

open Outcome

theorem lastOf_cons {α : Type} (m : String × α) (members : List (String × α)) (key : String) :
    lastOf (m :: members) key =
      (lastOf members key).or (if m.1 = key then some m.2 else none) := by
  have hfold (found : Option α) :
      members.foldl (fun found m => if m.1 = key then some m.2 else found) found =
        (lastOf members key).or found := by
    induction members using List.reverseRecOn with
    | nil => rfl
    | append_singleton members n ih =>
        simp only [lastOf, List.foldl_append, List.foldl_cons, List.foldl_nil] at ih ⊢
        split
        · rfl
        · exact ih
  exact hfold _

theorem lastOf_eq_none {α : Type} {members : List (String × α)} {key : String} :
    lastOf members key = none ↔ ∀ m ∈ members, m.1 ≠ key := by
  induction members with
  | nil => simp [lastOf]
  | cons m members ih => simp [lastOf_cons, ih, and_comm]

theorem mem_lastWins {α : Type} {members : List (String × α)} {m : String × α} :
    m ∈ lastWins members ↔ lastOf members m.1 = some m.2 := by
  induction members with
  | nil => simp [lastWins, lastOf]
  | cons n members ih =>
      have hany : members.any (fun k => k.1 = n.1) = true ↔ lastOf members n.1 ≠ none := by
        simp [lastOf_eq_none]
      rw [lastWins, lastOf_cons]
      by_cases hlast : lastOf members n.1 = none
      · rw [if_neg (by simpa [hany] using hlast), List.mem_cons, ih]
        by_cases hkey : n.1 = m.1
        · rw [← hkey, hlast]
          simp [hkey, Prod.ext_iff, eq_comm]
        · have hne : m ≠ n := fun heq => hkey (by rw [heq])
          simp [hkey, hne]
      · rw [if_pos (hany.2 hlast), ih]
        obtain ⟨v, hv⟩ := Option.ne_none_iff_exists'.1 hlast
        by_cases hkey : n.1 = m.1
        · rw [← hkey, hv, Option.some_or]
        · simp [hkey]

theorem nodup_lastWins {α : Type} (members : List (String × α)) :
    ((lastWins members).map (·.1)).Nodup := by
  induction members with
  | nil => simp [lastWins]
  | cons m members ih =>
      rw [lastWins]
      split
      · exact ih
      · rename_i hany
        refine List.nodup_cons.2 ⟨fun hmem => hany ?_, ih⟩
        obtain ⟨n, hn, hkey⟩ := List.mem_map.1 hmem
        exact List.any_eq_true.2 ⟨n, lastWins_subset members hn, by simpa using hkey⟩

/-- A value that stands in another, and that no later member of the same name has replaced. -/
inductive Stands : Json → Json → Prop
  | self (j : Json) : Stands j j
  | item {i k : Json} {items : List Json} (mem : k ∈ items) (inside : Stands i k) :
      Stands i (.array items)
  | member {i k : Json} {key : String} {members : List (String × Json)}
      (last : lastOf members key = some k) (inside : Stands i k) : Stands i (.object members)

def Overflows (literal : String) : Prop :=
  ∃ d, Decimal.read? literal.toList = some d ∧ Quotient.limit ≤ d.value

def IsDistinct : Json → Prop
  | .number literal => isFractional literal = true → ¬ Overflows literal
  | .object members => ∀ key key' v v', lastOf members key = some v → lastOf members key' = some v' →
      v ≠ .null → v' ≠ .null → Text.normal key = Text.normal key' → key = key'
  | _ => True

theorem settles_number {literal : String} (hliteral : IsLiteral literal) :
    (number literal).Settles ↔ (isFractional literal = true → ¬ Overflows literal) := by
  obtain ⟨d, hd⟩ := (Literal.of_isLiteral hliteral).exists_decimal
  have hoverflows : Overflows literal ↔ toDouble? literal = none := by
    simp [Overflows, toDouble?, hd, Decimal.toDouble?_eq_none]
  rw [hoverflows]
  simp only [Settles, normalForm_number_eq_ok, canonicalNumber]
  by_cases hfractional : isFractional literal = true
  · cases hdouble : toDouble? literal <;> simp [hfractional]
  · have hspelled : ∃ canonical, (if literal = "-0" then Except.ok "0" else Except.ok literal :
        Except Error String) = .ok canonical := by
      split <;> exact ⟨_, rfl⟩
    simpa [hfractional] using hspelled

theorem isNull_eq_false {j : Json} : j.isNull = false ↔ j ≠ .null := by
  cases j <;> simp [isNull]

theorem nodup_kept {members : List (String × Json)} (hkeys : (members.map (·.1)).Nodup) :
    ((kept members).map (·.1)).Nodup ↔
      ∀ m ∈ members, ∀ n ∈ members, m.2 ≠ .null → n.2 ≠ .null →
        Text.normal m.1 = Text.normal n.1 → m.1 = n.1 := by
  have hnodup : (members.filter fun m => !m.2.settled.isNull).Nodup := hkeys.of_map.filter _
  rw [kept, List.map_map, List.nodup_map_iff_inj_on hnodup]
  simp only [List.mem_filter, Bool.not_eq_true', isNull_settled, isNull_eq_false, Function.comp]
  constructor
  · intro h m hm n hn hnull hnull' hkey
    rw [h m ⟨hm, hnull⟩ n ⟨hn, hnull'⟩ hkey]
  · rintro h m ⟨hm, hnull⟩ n ⟨hn, hnull'⟩ hkey
    exact eq_of_mem_of_fst_eq hkeys hm hn (h m hm n hn hnull hnull' hkey)

theorem settles_iff {j : Json} (hj : j.Spelled) : j.Settles ↔ ∀ i, Stands i j → i.IsDistinct := by
  induction j using Json.induction with
  | null | bool _ | string _ =>
      refine ⟨fun _ i hi => ?_, fun _ => ⟨_, by rw [normalForm]⟩⟩
      cases hi
      trivial
  | number literal =>
      rw [settles_number hj]
      refine ⟨fun h i hi => ?_, fun h => h _ (.self _)⟩
      cases hi
      exact h
  | array items ih =>
      have hitems := (everywhere_array.1 hj).2
      rw [settles_array]
      refine ⟨fun h i hi => ?_, fun h k hk => ?_⟩
      · cases hi with
        | self => trivial
        | item mem inside => exact (ih _ mem (hitems _ mem)).1 (h _ mem) i inside
      · exact (ih k hk (hitems k hk)).2 fun i hi => h i (.item hk hi)
  | object members ih =>
      have hmembers := (everywhere_object.1 hj).2
      have hsettles {key : String} {k : Json} (hlast : lastOf members key = some k) :
          k.Settles ↔ ∀ i, Stands i k → i.IsDistinct := by
        have hmem := lastWins_subset members (mem_lastWins (m := (key, k)).2 hlast)
        exact ih _ hmem (hmembers _ hmem)
      have hobject : (object members).Settles ↔ (∀ m ∈ lastWins members, m.2.Settles) ∧
          ((kept (lastWins members)).map (·.1)).Nodup := by
        simp [Settles, normalForm_object_eq_ok]
      rw [hobject, nodup_kept (nodup_lastWins members)]
      simp only [mem_lastWins]
      constructor
      · rintro ⟨hvalues, hnames⟩ i hi
        cases hi with
        | self =>
            intro key key' v v' hv hv' hnull hnull' hkey
            exact hnames (key, v) hv (key', v') hv' hnull hnull' hkey
        | member last inside => exact (hsettles last).1 (hvalues (_, _) last) i inside
      · intro h
        refine ⟨fun m hm => (hsettles hm).2 fun i hi => h i (.member hm hi), ?_⟩
        intro m hm n hn hnull hnull' hkey
        exact h _ (.self _) _ _ _ _ hm hn hnull hnull' hkey

abbrev Strict (ms : List (String × Json)) : Prop :=
  ms.Pairwise fun m n => Text.units m.1 < Text.units n.1

/-- The normal form of a value. -/
inductive NormalOf : Json → Json → Prop
  | null : NormalOf .null .null
  | bool (b : Bool) : NormalOf (.bool b) (.bool b)
  | number {literal canonical : String} (spelled : canonicalNumber literal = .ok canonical) :
      NormalOf (.number literal) (.number canonical)
  | string (s : String) : NormalOf (.string s) (.string (Text.normal s))
  | array {items ws : List Json} (length : items.length = ws.length)
      (each : ∀ i (h : i < items.length) (h' : i < ws.length), NormalOf items[i] ws[i]) :
      NormalOf (.array items) (.array ws)
  -- Here `form` gives the normal form of the member of a name.
  | object {members ws : List (String × Json)} (form : String → Json)
      (each : ∀ key v, lastOf members key = some v → NormalOf v (form key))
      (kept : ∀ m, m ∈ ws ↔ ∃ key v, lastOf members key = some v ∧ v ≠ .null ∧
        m = (Text.normal key, form key))
      (strict : Strict ws) : NormalOf (.object members) (.object ws)

theorem strict_sortByUnits {ms : List (String × Json)} (h : (ms.map (·.1)).Nodup) :
    Strict (sortByUnits ms) := by
  have hnodup : ((sortByUnits ms).map (·.1)).Nodup := ((perm_sortByUnits ms).map _).nodup_iff.2 h
  have hboth := (sorted_sortByUnits ms).and (List.pairwise_map.1 hnodup)
  exact hboth.imp fun ⟨hle, hne⟩ => Text.units_lt hle hne

theorem Strict.eq {ms ns : List (String × Json)} (hms : Strict ms) (hns : Strict ns)
    (h : ∀ m, m ∈ ms ↔ m ∈ ns) : ms = ns := by
  have hnodup {ks : List (String × Json)} (hks : Strict ks) : ks.Nodup :=
    hks.imp fun hlt heq => absurd (heq ▸ hlt) (lt_irrefl _)
  have hperm := (List.perm_ext_iff_of_nodup (hnodup hms) (hnodup hns)).2 h
  exact hperm.eq_of_pairwise (fun m n _ _ hmn hnm => absurd (hmn.trans hnm) (lt_irrefl _)) hms hns

theorem Settles.normalOf {j : Json} (h : j.Settles) : NormalOf j j.settled := by
  induction j using Json.induction with
  | null => rw [settled_null]; exact .null
  | bool b => rw [settled_bool]; exact .bool b
  | string s => rw [settled_string]; exact .string s
  | number literal =>
      obtain ⟨canonical, hcanonical, hform⟩ := normalForm_number_eq_ok.1 h.normalForm_eq
      rw [hform]
      exact .number hcanonical
  | array items ih =>
      rw [settled_array h]
      refine .array (by simp) fun i hi hi' => ?_
      rw [List.getElem_map]
      exact ih _ (List.getElem_mem hi) (settles_array.1 h _ (List.getElem_mem hi))
  | object members ih =>
      obtain ⟨hsettles, hnodup, hform⟩ := normalForm_object_eq_ok.1 h.normalForm_eq
      rw [hform]
      refine .object (fun key => ((lastOf members key).getD .null).settled) ?_ ?_
        (strict_sortByUnits hnodup)
      · intro key v hlast
        have hmem := mem_lastWins (m := (key, v)).2 hlast
        rw [hlast]
        exact ih _ (lastWins_subset members hmem) (hsettles _ hmem)
      · intro m
        rw [(perm_sortByUnits _).mem_iff, mem_kept]
        constructor
        · rintro ⟨n, hn, hnull, rfl⟩
          rw [mem_lastWins] at hn
          refine ⟨n.1, n.2, hn, ?_, by rw [hn]; rfl⟩
          simpa [isNull_eq_false] using hnull
        · rintro ⟨key, v, hlast, hnull, rfl⟩
          refine ⟨(key, v), mem_lastWins.2 hlast, ?_, by rw [hlast]; rfl⟩
          simpa [isNull_eq_false] using hnull

theorem NormalOf.unique {j w w' : Json} (h : NormalOf j w) (h' : NormalOf j w') : w = w' := by
  induction h generalizing w' with
  | null | bool _ | string _ =>
      cases h'
      rfl
  | number spelled =>
      cases h' with
      | number spelled' =>
          rw [spelled, Except.ok.injEq] at spelled'
          rw [spelled']
  | array length each ih =>
      cases h' with
      | array length' each' =>
          rw [List.ext_getElem (length.symm.trans length') fun i hi hi' => ?_]
          have hitem := length.symm ▸ hi
          exact ih i hitem hi (each' i hitem hi')
  | object form each kept strict ih =>
      cases h' with
      | object form' each' kept' strict' =>
          rw [strict.eq strict' fun m => ?_]
          rw [kept, kept']
          refine exists₂_congr fun key v => and_congr_right fun hlast => ?_
          rw [ih key v hlast (each' key v hlast)]

def IsOrdered : Json → Prop
  | .object members => Strict members
  | _ => True

theorem NormalOf.ordered {j w : Json} (h : NormalOf j w) : w.Everywhere IsOrdered := by
  induction h with
  | null | bool _ | string _ | number _ => trivial
  | array length each ih =>
      refine everywhere_array.2 ⟨trivial, fun w hw => ?_⟩
      obtain ⟨i, hi, rfl⟩ := List.mem_iff_getElem.1 hw
      exact ih i (length.symm ▸ hi) hi
  | object form each kept strict ih =>
      refine everywhere_object.2 ⟨strict, fun m hm => ?_⟩
      obtain ⟨key, v, hlast, -, rfl⟩ := (kept m).1 hm
      exact ih key v hlast

/-- The same value, where the order of members does not count. -/
inductive Same : Json → Json → Prop
  | null : Same .null .null
  | bool (b : Bool) : Same (.bool b) (.bool b)
  | number (literal : String) : Same (.number literal) (.number literal)
  | string (s : String) : Same (.string s) (.string s)
  | array {items items' : List Json} (length : items.length = items'.length)
      (each : ∀ i (h : i < items.length) (h' : i < items'.length), Same items[i] items'[i]) :
      Same (.array items) (.array items')
  | object {members arranged members' : List (String × Json)} (perm : members.Perm arranged)
      (length : arranged.length = members'.length)
      (names : ∀ i (h : i < arranged.length) (h' : i < members'.length),
        arranged[i].1 = members'[i].1)
      (each : ∀ i (h : i < arranged.length) (h' : i < members'.length),
        Same arranged[i].2 members'[i].2) :
      Same (.object members) (.object members')

theorem Same.refl (j : Json) : Same j j := by
  induction j using Json.induction with
  | null => exact .null
  | bool b => exact .bool b
  | number literal => exact .number literal
  | string s => exact .string s
  | array items ih => exact .array rfl fun i hi _ => ih _ (List.getElem_mem hi)
  | object members ih =>
      exact .object (.refl members) rfl (fun _ _ _ => rfl) fun i hi _ => ih _ (List.getElem_mem hi)

theorem Same.eq {j k : Json} (h : Same j k) (hj : j.Everywhere IsOrdered)
    (hk : k.Everywhere IsOrdered) : j = k := by
  induction h with
  | null | bool _ | number _ | string _ => rfl
  | array length each ih =>
      rw [everywhere_array] at hj hk
      rw [List.ext_getElem length fun i hi hi' =>
        ih i hi hi' (hj.2 _ (List.getElem_mem hi)) (hk.2 _ (List.getElem_mem hi'))]
  | object perm length names each ih =>
      rw [everywhere_object] at hj hk
      have harranged := List.ext_getElem length fun i hi hi' =>
        Prod.ext (names i hi hi') (ih i hi hi' (hj.2 _ (perm.mem_iff.2 (List.getElem_mem hi)))
          (hk.2 _ (List.getElem_mem hi')))
      rw [Strict.eq hj.1 hk.1 fun m => by rw [← harranged, perm.mem_iff]]

theorem NormalOf.depth_le {j w : Json} (h : NormalOf j w) : w.depth ≤ j.depth := by
  induction h with
  | null | bool _ | string _ | number _ => exact le_rfl
  | array length each ih =>
      refine Nat.succ_le_succ (itemsDepth_le_iff.2 fun w hw => ?_)
      obtain ⟨i, hi, rfl⟩ := List.mem_iff_getElem.1 hw
      have hitem := length.symm ▸ hi
      exact (ih i hitem hi).trans (itemsDepth_le_iff.1 le_rfl _ (List.getElem_mem hitem))
  | object form each kept strict ih =>
      refine Nat.succ_le_succ (membersDepth_le_iff.2 fun m hm => ?_)
      obtain ⟨key, v, hlast, -, rfl⟩ := (kept m).1 hm
      have hmem := lastWins_subset _ (mem_lastWins (m := (key, v)).2 hlast)
      exact (ih key v hlast).trans (membersDepth_le_iff.1 le_rfl _ hmem)

theorem readFirst_of_blank {cs : List Char} (h : skipSpace cs = []) : readFirst cs = none := by
  simp [readFirst, readValue, h, readNumber, readMinus, readWhole, takeDigits]

theorem canonicalize_eq_ok {text out : String} :
    canonicalize text = .ok out ↔
      ∃ j, Document j text.toList ∧ j.depth ≤ maxDepth ∧ j.Settles ∧ out = writePlain j.settled := by
  have hread : canonicalize text = .ok out ↔
      ∃ j, (∃ tail, readFirst text.toList = some (j, tail) ∧ skipSpace tail = []) ∧
        j.canonical = .ok out := by
    unfold canonicalize
    by_cases hblank : skipSpace text.toList = []
    · simp [hblank, readFirst_of_blank hblank]
    · cases readFirst text.toList with
      | none => simp [hblank]
      | some result =>
          obtain ⟨value, tail⟩ := result
          by_cases htail : skipSpace tail = [] <;> simp [hblank, htail]
  rw [hread]
  simp only [readFirst_iff, canonical_eq_ok]
  refine exists_congr fun j => ?_
  tauto

theorem canonicalize_eq_writePlain {text out : String} (h : canonicalize text = .ok out)
    {j w : Json} (hj : Document j text.toList) (hw : NormalOf j w) :
    w.Spelled ∧ out = writePlain w := by
  obtain ⟨k, hk, -, hsettles, rfl⟩ := canonicalize_eq_ok.1 h
  cases hk.unique hj
  cases hsettles.normalOf.unique hw
  exact ⟨(hj.spelled.proper hsettles.normalForm_eq).spelled, rfl⟩

/-- A text has a canonical form exactly if it is one value that does not nest too deeply, in which
every number that counts can be respelled and the names of members stay apart when composed. The
canonical form is a text of the normal form of this value, and two texts have the same one exactly if
their normal forms are the same up to the order of members. -/
theorem canonicalize_invariant (text : String) :
    ((∃ out, canonicalize text = .ok out) ↔
      ∃ j, Document j text.toList ∧ j.depth ≤ maxDepth ∧ ∀ i, Stands i j → i.IsDistinct) ∧
    (∀ out, canonicalize text = .ok out → ∃ j w, Document j text.toList ∧ NormalOf j w ∧
      Document w out.toList ∧ parse out = .ok w) ∧
    ∀ out, canonicalize text = .ok out → ∀ text' out', canonicalize text' = .ok out' →
      ∀ j w j' w', Document j text.toList → NormalOf j w → Document j' text'.toList →
        NormalOf j' w' → (out = out' ↔ Same w w') := by
  refine ⟨?_, ?_, ?_⟩
  · simp only [canonicalize_eq_ok]
    constructor
    · rintro ⟨out, j, hdocument, hdepth, hsettles, -⟩
      exact ⟨j, hdocument, hdepth, (settles_iff hdocument.spelled).1 hsettles⟩
    · rintro ⟨j, hdocument, hdepth, hdistinct⟩
      exact ⟨_, j, hdocument, hdepth, (settles_iff hdocument.spelled).2 hdistinct, rfl⟩
  · intro out hout
    obtain ⟨j, hdocument, hdepth, hsettles, rfl⟩ := canonicalize_eq_ok.1 hout
    have hnormal := hsettles.normalOf
    obtain ⟨hspelled, -⟩ := canonicalize_eq_writePlain hout hdocument hnormal
    exact ⟨j, j.settled, hdocument, hnormal, document_writePlain hspelled,
      parse_writePlain hspelled (hnormal.depth_le.trans hdepth)⟩
  · intro out hout text' out' hout' j w j' w' hj hw hj' hw'
    obtain ⟨hspelled, rfl⟩ := canonicalize_eq_writePlain hout hj hw
    obtain ⟨hspelled', rfl⟩ := canonicalize_eq_writePlain hout' hj' hw'
    constructor
    · intro htext
      rw [eq_of_writePlain_eq hspelled hspelled' htext]
      exact .refl w'
    · intro hsame
      rw [hsame.eq hw.ordered hw'.ordered]

def plainText : String := "\x7b\"b\":[1.50,null],\"a\":null,\"c\":0\x7d"

def fancyText : String := " \x7b\"c\":1, \"b\":[15e-1,null], \"\\u0063\":-0\x7d\n"

theorem canonicalize_invariant_fancyText :
    ∃ out j w j' w', canonicalize plainText = .ok out ∧ canonicalize fancyText = .ok out ∧
      Document j plainText.toList ∧ NormalOf j w ∧ Document j' fancyText.toList ∧ NormalOf j' w' ∧
      Same w w' := by
  obtain ⟨out, hout⟩ := exists_of_isOk (show (canonicalize plainText).isOk = true by decide +kernel)
  obtain ⟨out', hout'⟩ := exists_of_isOk (show (canonicalize fancyText).isOk = true by decide +kernel)
  have hsame : out = out' := by
    have h : (canonicalize plainText).toOption = (canonicalize fancyText).toOption := by
      decide +kernel
    rw [hout, hout'] at h
    exact Option.some.inj h
  obtain ⟨-, hplain, hinvariant⟩ := canonicalize_invariant plainText
  obtain ⟨-, hfancy, -⟩ := canonicalize_invariant fancyText
  obtain ⟨j, w, hj, hw, -⟩ := hplain out hout
  obtain ⟨j', w', hj', hw', -⟩ := hfancy out' hout'
  exact ⟨out, j, w, j', w', hout, hsame ▸ hout', hj, hw, hj', hw',
    (hinvariant out hout fancyText out' hout' j w j' w' hj hw hj' hw').1 hsame⟩

end Json

end TenantQuery
