import TenantQuery.Proofs.Filter.Evaluation

namespace TenantQuery.Filter

def isConstant : Filter → Bool
  | .constant _ => true
  | _ => false

def isAbsorbedBy (op : Junction) : Filter → Bool
  | .constant b => b == op.unit
  | .junction op' _ => decide (op' = op)
  | _ => false

mutual

/-- No constant is negated, and every junction has two operands at least, none of which it
absorbs. -/
def isNormal : Filter → Bool
  | .test _ => true
  | .constant _ => true
  | .not f => !f.isConstant && isNormal f
  | .junction _ none => false
  | .junction op (some fs) => decide (2 ≤ fs.length) && areNormal op fs

def areNormal (op : Junction) : List Filter → Bool
  | [] => true
  | f :: fs => !f.isAbsorbedBy op && isNormal f && areNormal op fs

end

theorem areNormal_iff {op : Junction} {fs : List Filter} :
    areNormal op fs = true ↔ ∀ f ∈ fs, f.isAbsorbedBy op = false ∧ f.isNormal = true := by
  induction fs with
  | nil => simp [areNormal]
  | cons f fs ih => simp [areNormal, ih]

theorem isNormal_junctionOf {op : Junction} {fs : List Filter} :
    (junctionOf op fs).isNormal = true ↔ 2 ≤ fs.length ∧ areNormal op fs = true := by
  simp [junctionOf, isNormal]

theorem isNormal_complement {f : Filter} (h : f.isNormal = true) : f.complement.isNormal = true := by
  cases f with
  | constant b => rfl
  | test p => rfl
  | not f => simpa [complement, isNormal, isConstant] using h
  | junction op fs => simpa [complement, isNormal, isConstant] using h

theorem areNormal_contribution (op : Junction) {f : Filter} (h : f.isNormal = true) :
    areNormal op (contribution op f) = true := by
  cases f with
  | test p => rfl
  | not f => simpa [contribution, areNormal, isAbsorbedBy] using h
  | constant b =>
      by_cases hb : b = op.unit
      · simp [contribution, hb, areNormal]
      · simp [contribution, hb, areNormal, isAbsorbedBy, isNormal]
  | junction op' fs =>
      cases fs with
      | none => simp [isNormal] at h
      | some fs =>
          by_cases hop : op' = op
          · subst hop
            simpa [contribution] using (isNormal_junctionOf.1 h).2
          · simpa [contribution, hop, areNormal, isAbsorbedBy] using h

theorem isNormal_collapse {op : Junction} {fs : List Filter} (h : areNormal op fs = true) :
    (collapse op fs).isNormal = true := by
  match fs with
  | [] => rfl
  | [f] => exact (areNormal_iff.1 h f (List.mem_singleton_self f)).2
  | f :: g :: fs => exact isNormal_junctionOf.2 ⟨by simp, h⟩

theorem isNormal_normalize (f : Filter) : f.normalize.isNormal = true := by
  induction f using Filter.induction with
  | test p => rfl
  | constant b => rfl
  | not f ih => exact isNormal_complement ih
  | absent op => rfl
  | junction op fs ih =>
      refine isNormal_collapse (areNormal_iff.2 fun g hg => ?_)
      rw [normalizeAll_eq_flatMap] at hg
      obtain ⟨f, hf, hg⟩ := List.mem_flatMap.1 hg
      exact areNormal_iff.1 (areNormal_contribution op (ih f hf)) g hg

theorem contribution_of_not_absorbed {op : Junction} {f : Filter} (h : f.isAbsorbedBy op = false) :
    contribution op f = [f] := by
  cases f with
  | test p => rfl
  | not f => rfl
  | constant b =>
      have hb : b ≠ op.unit := by simpa [isAbsorbedBy] using h
      rw [contribution, if_neg hb]
  | junction op' fs =>
      have hop : op' ≠ op := by simpa [isAbsorbedBy] using h
      rw [contribution, if_neg hop]

theorem collapse_of_two_le {op : Junction} {fs : List Filter} (h : 2 ≤ fs.length) :
    collapse op fs = junctionOf op fs := by
  match fs with
  | [] => simp at h
  | [f] => simp at h
  | f :: g :: fs => rfl

theorem rejoin_of_two_le {op : Junction} {fs : List Filter} (h : 2 ≤ fs.length) :
    rejoin op fs = some (junctionOf op fs) := by
  match fs with
  | [] => simp at h
  | [f] => simp at h
  | f :: g :: fs => rfl

theorem normalize_of_isNormal {f : Filter} (h : f.isNormal = true) : f.normalize = f := by
  induction f using Filter.induction with
  | test p => rfl
  | constant b => rfl
  | not f ih =>
      simp only [isNormal, Bool.and_eq_true, Bool.not_eq_true'] at h
      rw [normalize, ih h.2]
      cases f with
      | constant b => simp [isConstant] at h
      | test p | not f | junction op fs => rfl
  | absent op => simp [isNormal] at h
  | junction op fs ih =>
      obtain ⟨hlength, hfs⟩ := isNormal_junctionOf.1 h
      have hoperands : ∀ f ∈ fs, contribution op f.normalize = [f] := by
        intro f hf
        obtain ⟨habsorbed, hnormal⟩ := areNormal_iff.1 hfs f hf
        rw [ih f hf hnormal, contribution_of_not_absorbed habsorbed]
      rw [normalize, normalizeAll_eq_flatMap, List.flatMap_congr hoperands, List.flatMap_singleton',
        collapse_of_two_le hlength, junctionOf]

theorem flattenAll_of_areNormal {op : Junction} {fs : List Filter} (h : areNormal op fs = true) :
    flattenAll op fs = fs := by
  have hoperands : ∀ f ∈ fs, flatten op f = [f] := by
    intro f hf
    match f, (areNormal_iff.1 h f hf).1 with
    | .test p, _ | .not g, _ | .constant b, _ => rw [flatten]
    | .junction op' none, hop | .junction op' (some gs), hop =>
        have hne : op' ≠ op := by simpa [isAbsorbedBy] using hop
        rw [flatten, if_neg hne]
  rw [flattenAll_eq_flatMap, List.flatMap_congr hoperands, List.flatMap_singleton']

theorem rejoin_flatten_of_isNormal (op : Junction) {f : Filter} (h : f.isNormal = true) :
    rejoin op (flatten op f) = some f := by
  match f, h with
  | .test p, _ | .not g, _ | .constant b, _ =>
      rw [flatten]
      rfl
  | .junction op' none, h => simp [isNormal] at h
  | .junction op' (some fs), h =>
      obtain ⟨hlength, hfs⟩ := isNormal_junctionOf.1 h
      by_cases hop : op' = op
      · subst hop
        rw [flatten, if_pos rfl, flattenAll_of_areNormal hfs, rejoin_of_two_le hlength, junctionOf]
      · rw [flatten, if_neg hop]
        rfl

inductive Occurs : Filter → Filter → Prop
  | self (f : Filter) : Occurs f f
  | operand {f g : Filter} {op : Junction} {fs : List Filter} (mem : g ∈ fs) (inside : Occurs f g) :
      Occurs f (.junction op (some fs))
  | negated {f g : Filter} (inside : Occurs f g) : Occurs f (.not g)

/-- A junction has two operands at least, none of which changes nothing or is a junction of the same
kind; no constant is negated. -/
def IsReduced : Filter → Prop
  | .junction op fs => 2 ≤ (fs.getD []).length ∧
      ∀ f ∈ fs.getD [], f ≠ .constant op.unit ∧ ∀ gs, f ≠ .junction op gs
  | .not f => ∀ b, f ≠ .constant b
  | _ => True

theorem isConstant_eq_false {f : Filter} : f.isConstant = false ↔ ∀ b, f ≠ .constant b := by
  cases f <;> simp [isConstant]

theorem isAbsorbedBy_eq_false {op : Junction} {f : Filter} :
    f.isAbsorbedBy op = false ↔ f ≠ .constant op.unit ∧ ∀ gs, f ≠ .junction op gs := by
  cases f with
  | test p => simp [isAbsorbedBy]
  | not f => simp [isAbsorbedBy]
  | constant b => simp [isAbsorbedBy]
  | junction op' fs => simp [isAbsorbedBy]

theorem isNormal_iff (f : Filter) : f.isNormal = true ↔ ∀ g, Occurs g f → g.IsReduced := by
  induction f using Filter.induction with
  | test p | constant b =>
      refine iff_of_true rfl fun g hg => ?_
      cases hg
      trivial
  | not f ih =>
      rw [isNormal, Bool.and_eq_true, Bool.not_eq_true', isConstant_eq_false, ih]
      constructor
      · rintro ⟨hconstant, hinside⟩ g hg
        cases hg with
        | self => exact hconstant
        | negated inside => exact hinside g inside
      · intro h
        exact ⟨h _ (.self _), fun g hg => h g (.negated hg)⟩
  | absent op =>
      refine iff_of_false (by simp [isNormal]) fun h => ?_
      have hlength := (h _ (.self _)).1
      simp at hlength
  | junction op fs ih =>
      rw [isNormal, Bool.and_eq_true, decide_eq_true_eq, areNormal_iff]
      constructor
      · rintro ⟨hlength, hoperands⟩ g hg
        cases hg with
        | self => exact ⟨hlength, fun f hf => isAbsorbedBy_eq_false.1 (hoperands f hf).1⟩
        | operand mem inside => exact (ih _ mem).1 (hoperands _ mem).2 g inside
      · intro h
        obtain ⟨hlength, hoperands⟩ := h _ (.self _)
        refine ⟨hlength, fun f hf => ⟨isAbsorbedBy_eq_false.2 (hoperands f hf), ?_⟩⟩
        exact (ih f hf).2 fun g hg => h g (.operand hf hg)

/-- Normalizing keeps the value of a filter on every row and leaves nothing to reduce at any depth.
A filter in which nothing is left to reduce, such as a normalized one, is what it is normalized
to. -/
theorem normalize_reduces (f : Filter) :
    (∀ answer, f.normalize.eval answer = f.eval answer) ∧
      (∀ g, Occurs g f.normalize → g.IsReduced) ∧
      f.normalize.normalize = f.normalize ∧
      ((∀ g, Occurs g f → g.IsReduced) → f.normalize = f) := by
  have hnormal := isNormal_normalize f
  refine ⟨fun answer => eval_normalize answer f, (isNormal_iff _).1 hnormal,
    normalize_of_isNormal hnormal, fun hreduced => ?_⟩
  exact normalize_of_isNormal ((isNormal_iff f).2 hreduced)

def proOnIos : Filter :=
  .junctionOf .all [.selector "os" "ios",
    .junctionOf .any [.selector "plan" "pro", .not (.selector "plan" "trial")]]

def windingProOnIos : Filter :=
  .junctionOf .any [.not (.junction .all none),
    .junctionOf .all [.junctionOf .all [.selector "os" "ios", .constant true],
      .junctionOf .any [.junctionOf .any [.selector "plan" "pro"], .constant false,
        .not (.junctionOf .all [.selector "plan" "trial"])]]]

theorem normalize_reduces_windingProOnIos :
    windingProOnIos.normalize = proOnIos ∧ proOnIos.normalize = proOnIos ∧
      (∀ answer, proOnIos.eval answer = windingProOnIos.eval answer) ∧
      ∀ g, Occurs g proOnIos → g.IsReduced := by
  have hform : windingProOnIos.normalize = proOnIos := rfl
  obtain ⟨hvalue, hreduced, -, -⟩ := normalize_reduces windingProOnIos
  rw [hform] at hvalue hreduced
  exact ⟨hform, (normalize_reduces proOnIos).2.2.2 hreduced, hvalue, hreduced⟩

end TenantQuery.Filter
