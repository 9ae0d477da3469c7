import TenantQuery.Proofs.Text.Composition

namespace TenantQuery.Text

section Runs

def Fits : (count : Nat) → List Char → Prop
  | _, [] => True
  | count, d :: ds => tally count d ≤ maxMarks ∧ Fits (tally count d) ds

theorem fits_append {count : Nat} {ds es : List Char} :
    Fits count (ds ++ es) ↔ Fits count ds ∧ Fits (ds.foldl tally count) es := by
  induction ds generalizing count with
  | nil => simp [Fits]
  | cons d ds ih => simp [Fits, ih, and_assoc]

theorem Fits.foldl_le {count : Nat} {ds : List Char} (h : Fits count ds) (hcount : count ≤ maxMarks) :
    ds.foldl tally count ≤ maxMarks := by
  induction ds generalizing count with
  | nil => exact hcount
  | cons d ds ih => exact ih h.2 h.1

theorem fits_of_length {count : Nat} {ds : List Char} (h : count + 2 * ds.length ≤ maxMarks) :
    Fits count ds := by
  induction ds generalizing count with
  | nil => trivial
  | cons d ds ih =>
      have hle := tally_le count d
      rw [List.length_cons] at h
      exact ⟨by omega, ih (by omega)⟩

theorem le_foldl_tally {count : Nat} {ds : List Char} (h : ∀ d ∈ ds, leading d ≠ 0) :
    count ≤ ds.foldl tally count := by
  induction ds generalizing count with
  | nil => exact Nat.le_refl count
  | cons d ds ih =>
      obtain ⟨hd, hds⟩ := List.forall_mem_cons.1 h
      exact Nat.le_trans (le_tally hd count) (ih hds)

theorem fits_of_leading {count : Nat} {ds : List Char} (h : ∀ d ∈ ds, leading d ≠ 0)
    (hle : ds.foldl tally count ≤ maxMarks) : Fits count ds := by
  induction ds generalizing count with
  | nil => trivial
  | cons d ds ih =>
      obtain ⟨hd, hds⟩ := List.forall_mem_cons.1 h
      exact ⟨Nat.le_trans (le_foldl_tally hds) hle, ih hds hle⟩

theorem fits_decomposeChar {count : Nat} {c : Char}
    (h : (decomposeChar c).foldl tally count ≤ maxMarks) : Fits count (decomposeChar c) := by
  cases hds : decomposeChar c with
  | nil => trivial
  | cons d ds =>
      rw [hds] at h
      rcases leading_decomposeChar hds with hd | hds'
      · -- Whatever stands before, the run begins anew and is short.
        have hlength := length_decomposeChar_le c
        have hle := tally_le 0 d
        rw [hds, List.length_cons] at hlength
        have hshort : tally 0 d + 2 * ds.length ≤ maxMarks := by unfold maxMarks; omega
        rw [Fits, tally_of_leading hd]
        exact ⟨by omega, fits_of_length hshort⟩
      · exact fits_of_leading hds' h

theorem fits_decomposeChar_zero (c : Char) : Fits 0 (decomposeChar c) := by
  have hlength := length_decomposeChar_le c
  exact fits_of_length (by unfold maxMarks; omega)

theorem fits_splitRuns (count : Nat) (cs : List Char) :
    Fits count ((splitRuns count cs).flatMap decomposeChar) := by
  induction cs generalizing count with
  | nil => trivial
  | cons c cs ih =>
      rw [splitRuns]
      split
      · rw [List.flatMap_cons, decomposeChar_joiner, List.singleton_append, Fits, tally_joiner,
          List.flatMap_cons, fits_append]
        exact ⟨Nat.zero_le _, fits_decomposeChar_zero c, ih _⟩
      · rename_i hle
        rw [List.flatMap_cons, fits_append]
        exact ⟨fits_decomposeChar (Nat.le_of_not_lt hle), ih _⟩

theorem splitRuns_of_fits {count : Nat} {cs : List Char} (hcount : count ≤ maxMarks)
    (h : Fits count (cs.flatMap decomposeChar)) : splitRuns count cs = cs := by
  induction cs generalizing count with
  | nil => rfl
  | cons c cs ih =>
      rw [List.flatMap_cons, fits_append] at h
      have hgrown := h.1.foldl_le hcount
      rw [splitRuns]
      rw [if_neg (Nat.not_lt.2 hgrown), ih hgrown h.2]

end Runs

section Order

/-- Marks of different classes that stand next to each other may change places. -/
inductive Reordered : List Char → List Char → Prop
  | refl (cs : List Char) : Reordered cs cs
  | cons (c : Char) {cs ds : List Char} : Reordered cs ds → Reordered (c :: cs) (c :: ds)
  | swap {a b : Char} (cs : List Char) (ha : combiningClass a ≠ 0) (hb : combiningClass b ≠ 0)
      (hne : combiningClass a ≠ combiningClass b) : Reordered (a :: b :: cs) (b :: a :: cs)
  | trans {cs ds es : List Char} : Reordered cs ds → Reordered ds es → Reordered cs es

namespace Reordered

variable {cs ds : List Char}

theorem append_left (h : Reordered cs ds) (es : List Char) : Reordered (es ++ cs) (es ++ ds) := by
  induction es with
  | nil => exact h
  | cons e es ih => exact ih.cons e

theorem append_right (h : Reordered cs ds) (es : List Char) : Reordered (cs ++ es) (ds ++ es) := by
  induction h with
  | refl cs => exact .refl _
  | cons c _ ih => exact ih.cons c
  | swap cs ha hb hne => exact .swap (cs ++ es) ha hb hne
  | trans _ _ ih ih' => exact ih.trans ih'

theorem mem_iff (h : Reordered cs ds) {c : Char} : c ∈ cs ↔ c ∈ ds := by
  induction h with
  | refl => rfl
  | cons d _ ih => rw [List.mem_cons, List.mem_cons, ih]
  | swap es => simp only [List.mem_cons, or_left_comm]
  | trans _ _ ih ih' => rw [ih, ih']

theorem move {c : Char} {marks : List Char} (hc : combiningClass c ≠ 0)
    (h : ∀ d ∈ marks, combiningClass d ≠ 0 ∧ combiningClass d ≠ combiningClass c) :
    Reordered (marks ++ [c]) (c :: marks) := by
  induction marks with
  | nil => exact .refl _
  | cons d marks ih =>
      obtain ⟨hd, hmarks⟩ := List.forall_mem_cons.1 h
      exact ((ih hmarks).cons d).trans (.swap marks hd.1 hc hd.2)

theorem fits_iff (h : Reordered cs ds) (count : Nat) : Fits count cs ↔ Fits count ds := by
  induction h generalizing count with
  | refl => rfl
  | cons c _ ih => rw [Fits, Fits, ih]
  | swap cs ha hb => simp only [Fits, tally_mark ha, tally_mark hb]
  | trans _ _ ih ih' => rw [ih, ih']

theorem insertMark_comm {a b : Char} (h : combiningClass a < combiningClass b) (run : List Char) :
    insertMark b (insertMark a run) = insertMark a (insertMark b run) := by
  induction run with
  | nil => simp [insertMark, Nat.le_of_lt h, Nat.not_le_of_lt h]
  | cons d run ih =>
      by_cases hda : combiningClass d ≤ combiningClass a
      · have hdb : combiningClass d ≤ combiningClass b := by omega
        simp [insertMark, hda, hdb, ih]
      · by_cases hdb : combiningClass d ≤ combiningClass b
        · simp [insertMark, hda, hdb, Nat.le_of_lt h]
        · simp [insertMark, hda, hdb, Nat.le_of_lt h, Nat.not_le_of_lt h]

theorem orderMarks_eq (h : Reordered cs ds) (run : List Char) :
    orderMarks run cs = orderMarks run ds := by
  induction h generalizing run with
  | refl => rfl
  | cons c _ ih => rw [orderMarks, orderMarks, ih, ih]
  | swap cs ha hb hne =>
      rename_i a b
      simp only [orderMarks, if_neg ha, if_neg hb]
      rcases Nat.lt_or_gt_of_ne hne with hlt | hgt
      · rw [insertMark_comm hlt]
      · rw [insertMark_comm hgt]
  | trans _ _ ih ih' => rw [ih, ih']

end Reordered

/-- Marks stand in order of their classes, none of which is below the given one. -/
def InOrder : (least : Nat) → List Char → Prop
  | _, [] => True
  | least, c :: cs =>
    (combiningClass c = 0 ∨ least ≤ combiningClass c) ∧ InOrder (combiningClass c) cs

theorem InOrder.mono {m n : Nat} {cs : List Char} (h : InOrder n cs) (hle : m ≤ n) :
    InOrder m cs := by
  cases cs with
  | nil => trivial
  | cons c cs => exact ⟨h.1.imp_right (Nat.le_trans hle), h.2⟩

/-- Marks of one run in order of their classes. -/
structure IsRun (run : List Char) : Prop where
  marks : ∀ d ∈ run, combiningClass d ≠ 0
  sorted : run.Pairwise (combiningClass · ≤ combiningClass ·)

namespace IsRun

variable {c : Char} {run : List Char}

theorem nil : IsRun [] :=
  ⟨List.forall_mem_nil _, .nil⟩

theorem reordered (h : IsRun run) (hc : combiningClass c ≠ 0) :
    Reordered (run ++ [c]) (insertMark c run) := by
  obtain ⟨hmarks, hsorted⟩ := h
  induction run with
  | nil => exact .refl _
  | cons d run ih =>
      obtain ⟨hd, hmarks'⟩ := List.forall_mem_cons.1 hmarks
      obtain ⟨hleast, hsorted⟩ := List.pairwise_cons.1 hsorted
      rw [insertMark]
      split
      · exact (ih hmarks' hsorted).cons d
      · rename_i hlt
        apply Reordered.move hc
        intro e he
        refine ⟨hmarks e he, ?_⟩
        rcases List.mem_cons.1 he with rfl | he
        · omega
        · have hle := hleast e he
          omega

theorem insert (h : IsRun run) (hc : combiningClass c ≠ 0) : IsRun (insertMark c run) := by
  have hmem {e : Char} {run : List Char} (h : IsRun run) (he : e ∈ insertMark c run) :
      e = c ∨ e ∈ run := by
    have hor := (h.reordered hc).mem_iff.2 he
    rw [List.mem_append, List.mem_singleton] at hor
    exact hor.symm
  refine ⟨fun e he => (hmem h he).elim (fun heq => heq ▸ hc) (h.marks e), ?_⟩
  induction run with
  | nil => exact List.pairwise_singleton _ _
  | cons d run ih =>
      obtain ⟨hmarks, hsorted⟩ := h
      obtain ⟨hleast, hsorted'⟩ := List.pairwise_cons.1 hsorted
      have hrun : IsRun run := ⟨fun e he => hmarks e (List.mem_cons_of_mem d he), hsorted'⟩
      rw [insertMark]
      split
      · rename_i hle
        refine List.pairwise_cons.2 ⟨fun e he => ?_, ih hrun⟩
        rcases hmem hrun he with rfl | he
        · exact hle
        · exact hleast e he
      · rename_i hlt
        refine List.pairwise_cons.2 ⟨List.forall_mem_cons.2 ⟨by omega, fun e he => ?_⟩, hsorted⟩
        have hle := hleast e he
        omega

theorem inOrder_append {least : Nat} {cs : List Char} (h : IsRun run)
    (hrun : ∀ d ∈ run, least ≤ combiningClass d) (hcs : ∀ n, InOrder n cs) :
    InOrder least (run ++ cs) := by
  obtain ⟨hmarks, hsorted⟩ := h
  induction run generalizing least with
  | nil => exact hcs least
  | cons d run ih =>
      obtain ⟨hleast, hsorted⟩ := List.pairwise_cons.1 hsorted
      refine ⟨.inr (hrun d List.mem_cons_self), ih hleast ?_ hsorted⟩
      exact fun e he => hmarks e (List.mem_cons_of_mem d he)

end IsRun

theorem reordered_orderMarks {run : List Char} (h : IsRun run) (cs : List Char) :
    Reordered (run ++ cs) (orderMarks run cs) := by
  induction cs generalizing run with
  | nil => 
      rw [orderMarks, List.append_nil]
      exact .refl run
  | cons c cs ih =>
      rw [orderMarks]
      split
      · exact ((ih .nil).cons c).append_left run
      · rename_i hc
        have hmove := (h.reordered hc).append_right cs
        rw [List.append_assoc, List.singleton_append] at hmove
        exact hmove.trans (ih (h.insert hc))

theorem inOrder_orderMarks {run : List Char} (h : IsRun run) (cs : List Char) :
    InOrder 0 (orderMarks run cs) := by
  induction cs generalizing run with
  | nil =>
      rw [orderMarks, ← List.append_nil run]
      exact h.inOrder_append (fun _ _ => Nat.zero_le _) fun _ => trivial
  | cons c cs ih =>
      rw [orderMarks]
      split
      · rename_i hc
        refine h.inOrder_append (fun _ _ => Nat.zero_le _) fun n => ⟨.inl hc, ?_⟩
        rw [hc]
        exact ih .nil
      · rename_i hc
        exact ih (h.insert hc)

end Order

section Composing

/-- The marks of a cluster can be put back behind its base. -/
structure Cluster.Sound (k : Cluster) : Prop where
  kept : ∀ d ∈ k.kept,
    combiningClass d ≠ 0 ∧ combiningClass d ≤ k.lastClass ∧ decomposeChar d = [d]
  least : k.kept = [] → k.lastClass = 0

theorem flatMap_decomposeChar {ds : List Char} (h : ∀ d ∈ ds, decomposeChar d = [d]) :
    ds.flatMap decomposeChar = ds := by
  induction ds with
  | nil => rfl
  | cons d ds ih =>
      obtain ⟨hd, hds⟩ := List.forall_mem_cons.1 h
      rw [List.flatMap_cons, hd, ih hds, List.singleton_append]

namespace Cluster.Sound

variable {k joined : Cluster} {c : Char} {cs : List Char}

theorem single (c : Char) : Sound ⟨c, [], 0⟩ :=
  ⟨List.forall_mem_nil _, fun _ => rfl⟩

theorem chars (h : k.Sound) :
    k.chars.flatMap decomposeChar = decomposeChar k.base ++ k.kept.reverse := by
  rw [Cluster.chars, List.flatMap_cons,
    flatMap_decomposeChar fun d hd => (h.kept d (List.mem_reverse.1 hd)).2.2]

theorem keep (h : k.Sound) (hc : combiningClass c ≠ 0) (hle : k.lastClass ≤ combiningClass c)
    (hself : decomposeChar c = [c]) :
    Sound { k with kept := c :: k.kept, lastClass := combiningClass c } := by
  refine ⟨List.forall_mem_cons.2 ⟨⟨hc, Nat.le_refl _, hself⟩, fun d hd => ?_⟩, nofun⟩
  obtain ⟨hmark, hlast, hd⟩ := h.kept d hd
  exact ⟨hmark, Nat.le_trans hlast hle, hd⟩

/-- The mark that joins the base is one that nothing kept after the base holds back. -/
theorem join (h : k.Sound) (hjoin : k.join? c = some joined) :
    joined.Sound ∧ joined.lastClass ≤ combiningClass c ∧
      Reordered (decomposeChar k.base ++ (k.kept.reverse ++ c :: cs))
        (decomposeChar joined.base ++ (joined.kept.reverse ++ cs)) := by
  rw [Cluster.join?] at hjoin
  split at hjoin
  · cases hjoin
  · rename_i hfree
    obtain ⟨b, hb, rfl⟩ := Option.map_eq_some_iff.1 hjoin
    simp only [Bool.and_eq_true, Bool.not_eq_true', List.isEmpty_eq_false_iff, decide_eq_true_eq,
      not_and, Nat.not_le] at hfree
    refine ⟨⟨h.kept, h.least⟩, ?_, ?_⟩
    · by_cases hkept : k.kept = []
      · exact h.least hkept ▸ Nat.zero_le _
      · exact Nat.le_of_lt (hfree hkept)
    · rw [decomposeChar_composePair? hb, List.append_assoc]
      refine Reordered.append_left ?_ _
      by_cases hkept : k.kept = []
      · rw [hkept]
        exact .refl _
      · have hlt := hfree hkept
        have hpassed : ∀ d ∈ k.kept.reverse,
            combiningClass d ≠ 0 ∧ combiningClass d ≠ combiningClass c := by
          intro d hd
          obtain ⟨hmark, hlast, -⟩ := h.kept d (List.mem_reverse.1 hd)
          exact ⟨hmark, by omega⟩
        have hmove := Reordered.move (show combiningClass c ≠ 0 by omega) hpassed
        simpa using hmove.append_right cs

theorem reordered_composeFrom (h : k.Sound) (hself : ∀ d ∈ cs, decomposeChar d = [d])
    (horder : InOrder k.lastClass cs) :
    Reordered (decomposeChar k.base ++ (k.kept.reverse ++ cs))
      ((composeFrom (some k) cs).flatMap decomposeChar) := by
  induction cs generalizing k with
  | nil =>
      rw [composeFrom, h.chars, List.append_nil]
      exact .refl _
  | cons c cs ih =>
      obtain ⟨hc, hself⟩ := List.forall_mem_cons.1 hself
      obtain ⟨hclass, horder⟩ := horder
      rw [composeFrom]
      split
      · rename_i joined hjoin
        obtain ⟨hsound, hlast, hmoved⟩ := h.join hjoin
        exact hmoved.trans (ih hsound hself (horder.mono hlast))
      · split
        · rename_i hzero
          rw [List.flatMap_append, h.chars, List.append_assoc]
          rw [hzero] at horder
          have hrest := ih (single c) hself horder
          rw [hc] at hrest
          exact (hrest.append_left _).append_left _
        · rename_i hmark
          have hkept := ih (h.keep hmark (hclass.resolve_left hmark) hc) hself horder
          simpa using hkept

end Cluster.Sound

/-- Composing characters that do not decompose only moves marks past marks of other classes. -/
theorem reordered_composeFrom_none {n : Nat} {cs : List Char}
    (hself : ∀ d ∈ cs, decomposeChar d = [d]) (horder : InOrder n cs) :
    Reordered cs ((composeFrom none cs).flatMap decomposeChar) := by
  induction cs generalizing n with
  | nil => exact .refl _
  | cons c cs ih =>
      obtain ⟨hc, hself⟩ := List.forall_mem_cons.1 hself
      rw [composeFrom]
      split
      · rename_i hzero
        have horder := horder.2
        rw [hzero] at horder
        have hbase := (Cluster.Sound.single c).reordered_composeFrom hself horder
        rwa [hc] at hbase
      · rw [List.flatMap_cons, hc]
        exact (ih hself horder.2).cons c

/-- Composing only decomposes, and moves marks past marks of other classes. -/
theorem reordered_compose (cs : List Char) :
    Reordered ((splitRuns 0 cs).flatMap decomposeChar) ((compose cs).flatMap decomposeChar) := by
  have hordered := reordered_orderMarks .nil ((splitRuns 0 cs).flatMap decomposeChar)
  refine hordered.trans (reordered_composeFrom_none (fun d hd => ?_) (inOrder_orderMarks .nil _))
  obtain ⟨c, -, hd⟩ := List.mem_flatMap.1 (hordered.mem_iff.2 hd)
  exact decomposeChar_of_mem hd

theorem compose_compose (cs : List Char) : compose (compose cs) = compose cs := by
  have hmoved := reordered_compose cs
  have hfits := (hmoved.fits_iff 0).1 (fits_splitRuns 0 cs)
  rw [compose, splitRuns_of_fits (Nat.zero_le _) hfits, ← hmoved.orderMarks_eq]
  rfl

theorem compose_ne_nil {cs : List Char} (h : cs ≠ []) : compose cs ≠ [] := by
  intro hnil
  have hmoved := reordered_compose cs
  rw [hnil] at hmoved
  obtain ⟨c, rest, hsplit⟩ : ∃ c rest, splitRuns 0 cs = c :: rest := by
    cases cs with
    | nil => exact absurd rfl h
    | cons c cs =>
        rw [splitRuns]
        split <;> exact ⟨_, _, rfl⟩
  obtain ⟨d, ds, hds⟩ := List.exists_cons_of_ne_nil (decomposeChar_ne_nil c)
  have hmem : d ∈ (splitRuns 0 cs).flatMap decomposeChar := by
    rw [hsplit, List.flatMap_cons, hds]
    exact List.mem_cons_self
  exact List.not_mem_nil (hmoved.mem_iff.1 hmem)

end Composing

section Normal

theorem normal_eq_self {s : String} (h : s.toList.all (·.toNat < 0xc0) = true) : normal s = s := by
  rw [normal, normalChars, if_pos h, String.ofList_toList]

@[simp] theorem normal_normal (s : String) : normal (normal s) = normal s := by
  have hchars (cs : List Char) : normalChars (normalChars cs) = normalChars cs := by
    by_cases hplain : cs.all (·.toNat < 0xc0) = true
    · have hcs : normalChars cs = cs := if_pos hplain
      rw [hcs, hcs]
    · have hcs : normalChars cs = compose cs := if_neg hplain
      rw [hcs, normalChars, compose_compose, ite_self]
  simp only [normal, String.toList_ofList, hchars]

theorem normal_eq_empty {s : String} : normal s = "" ↔ s = "" := by
  constructor
  · intro h
    have hnil : normalChars s.toList = [] := by
      simpa [normal] using congrArg String.toList h
    rw [normalChars] at hnil
    split at hnil
    · exact String.toList_eq_nil_iff.1 hnil
    · refine Decidable.byContradiction fun hs => compose_ne_nil ?_ hnil
      exact fun hnil => hs (String.toList_eq_nil_iff.1 hnil)
  · rintro rfl
    exact normal_eq_self rfl

end Normal

section Inert

theorem inRange?_nonStarters_inert :
    ∀ n : Fin 0x60, Composition.nonStarters.inRange? n = none := by
  decide +kernel

variable {c : Char} (hc : isInert c = true)

include hc

theorem composeFrom_inert (kept : List Char) (lastClass : Nat) (cs : List Char) :
    composeFrom (some ⟨c, kept, lastClass⟩) cs = c :: (kept.reverse ++ composeFrom none cs) := by
  induction cs generalizing kept lastClass with
  | nil => simp [composeFrom, Cluster.chars]
  | cons d cs ih =>
      have hjoin : Cluster.join? ⟨c, kept, lastClass⟩ d = none := by
        simp [Cluster.join?, composePair?_inert hc]
      simp only [composeFrom, hjoin]
      split
      · simp [Cluster.chars]
      · simp [ih]

theorem compose_cons (cs : List Char) : compose (c :: cs) = c :: compose cs := by
  have hlt := toNat_lt_of_inert hc
  have hself : decomposeChar c = [c] := by
    rw [decomposeChar, decompose, if_pos (by omega), List.map_singleton, Char.ofNat_toNat]
  have hclass : combiningClass c = 0 := by rw [combiningClass, if_pos (by omega)]
  have htally : tally 0 c = 0 := by
    simp [tally, nonStarters, hclass, inRange?_nonStarters_inert ⟨_, hlt⟩]
  have hsplit : splitRuns 0 (c :: cs) = c :: splitRuns 0 cs := by
    simp [splitRuns, hself, htally]
  rw [compose, hsplit, List.flatMap_cons, hself, List.singleton_append, orderMarks, if_pos hclass,
    List.nil_append, composeFrom, if_pos hclass, composeFrom_inert hc]
  rfl

theorem normalChars_cons (cs : List Char) : normalChars (c :: cs) = c :: normalChars cs := by
  have hlt := toNat_lt_of_inert hc
  have hall : (c :: cs).all (·.toNat < 0xc0) = cs.all (·.toNat < 0xc0) := by
    rw [List.all_cons, decide_eq_true (by omega), Bool.true_and]
  rw [normalChars, normalChars, hall, compose_cons hc]
  split <;> rfl

end Inert

theorem normal_append {s : String} (hs : s.toList.all isInert = true) (t : String) :
    normal (s ++ t) = s ++ normal t := by
  have hchars (cs : List Char) (hcs : cs.all isInert = true) :
      normalChars (cs ++ t.toList) = cs ++ normalChars t.toList := by
    induction cs with
    | nil => rfl
    | cons c cs ih =>
        rw [List.all_cons, Bool.and_eq_true] at hcs
        rw [List.cons_append, normalChars_cons hcs.1, ih hcs.2, List.cons_append]
  rw [normal, String.toList_append, hchars _ hs, String.ofList_append, String.ofList_toList, normal]

end TenantQuery.Text
