import TenantQuery.Proofs.PostAggregator.Scoping

namespace TenantQuery

open Outcome

namespace Json

variable {α : Type} {key key' : String}

theorem insertSorted_comm_of_le (hne : key ≠ key') (hle : Text.codesLe key key' = true)
    (value value' : α) (ms : List (String × α)) :
    insertSorted key value (insertSorted key' value' ms) =
      insertSorted key' value' (insertSorted key value ms) := by
  have hgt : ¬ Text.codesLe key' key = true := fun h => hne (Text.codesLe_antisymm hle h)
  induction ms with
  | nil => simp [insertSorted, hne, hne.symm, hle, hgt]
  | cons m ms ih =>
      by_cases hm : m.1 = key
      · -- The first key is replaced where it stands, and the second goes on past it.
        simp [insertSorted, hm, hne, hgt]
      by_cases hm' : m.1 = key'
      · simp [insertSorted, hm', hne, hne.symm, hle, hgt]
      by_cases hfirst : Text.codesLe key m.1 = true
      · by_cases hsecond : Text.codesLe key' m.1 = true
        · simp [insertSorted, hm, hm', hfirst, hsecond, hne, hne.symm, hle, hgt]
        · simp [insertSorted, hm, hm', hfirst, hsecond, hne, hgt]
      · -- What the first key comes after, the second comes after as well.
        have hsecond : ¬ Text.codesLe key' m.1 = true := fun h => hfirst (Text.lexLe_trans hle h)
        simp [insertSorted, hm, hm', hfirst, hsecond, ih]

theorem insertSorted_comm (hne : key ≠ key') (value value' : α) (ms : List (String × α)) :
    insertSorted key value (insertSorted key' value' ms) =
      insertSorted key' value' (insertSorted key value ms) := by
  rcases Text.lexLe_total (key.toList.map Char.toNat) (key'.toList.map Char.toNat) with hle | hle
  · exact insertSorted_comm_of_le hne hle value value' ms
  · exact (insertSorted_comm_of_le hne.symm hle value' value ms).symm

end Json

namespace PostAggregator

mutual

def reads : PostAggregator → List String
  | .fieldAccess _ fieldName => [fieldName]
  | .finalizingFieldAccess _ fieldName => [fieldName]
  | .hyperUniqueCardinality _ fieldName => [fieldName]
  | .arithmetic _ _ operands _ => readsOfOperands operands
  | .extremum _ _ operands => readsOfOperands operands
  | .zScore _ size1 success1 size2 success2 =>
    reads size1 ++ reads success1 ++ reads size2 ++ reads success2
  | .pValue _ score => reads score
  | .constant _ _ | .expression _ _ _ => []
  | .sketchEstimate _ _ | .sketchSetOp _ _ _ _ | .sketchHistogram _ _ _ => []

def readsOfOperands : Option (List PostAggregator) → List String
  | none => []
  | some ps => readsOfAll ps

def readsOfAll : List PostAggregator → List String
  | [] => []
  | p :: ps => reads p ++ readsOfAll ps

end

theorem readsOfAll_eq_flatMap (ps : List PostAggregator) : readsOfAll ps = ps.flatMap reads := by
  induction ps with
  | nil => rfl
  | cons p ps ih => rw [readsOfAll, ih, List.flatMap_cons]

section Frame

variable {row row' : Row} {p : PostAggregator} {ps : List PostAggregator}

theorem evaluateEach_congr (h : ∀ p ∈ ps, p.evaluate row = p.evaluate row') :
    evaluateEach row ps = evaluateEach row' ps := by
  induction ps with
  | nil => rfl
  | cons p ps ih =>
      rw [List.forall_mem_cons] at h
      rw [evaluateEach, evaluateEach, h.1, ih h.2]

theorem evaluate_congr (h : ∀ name ∈ p.reads, row.get? name = row'.get? name) :
    p.evaluate row = p.evaluate row' := by
  have hcolumn (name : String) (heq : row.get? name = row'.get? name) :
      column row name = column row' name := by
    rw [column, column, heq]
  have hoperands {ps : List PostAggregator} (ih : ∀ p ∈ ps,
        (∀ name ∈ p.reads, row.get? name = row'.get? name) → p.evaluate row = p.evaluate row')
      (hps : ∀ name ∈ readsOfAll ps, row.get? name = row'.get? name) :
      evaluateEach row ps = evaluateEach row' ps := by
    rw [readsOfAll_eq_flatMap] at hps
    exact evaluateEach_congr fun p hp =>
      ih p hp fun name hname => hps name (List.mem_flatMap.2 ⟨p, hp, hname⟩)
  induction p using PostAggregator.induction with
  | fieldAccess name fieldName => exact hcolumn fieldName (h _ (List.mem_singleton_self _))
  | finalizingFieldAccess name fieldName => exact hcolumn fieldName (h _ (List.mem_singleton_self _))
  | hyperUniqueCardinality name fieldName =>
      exact hcolumn fieldName (h _ (List.mem_singleton_self _))
  | arithmetic name fn operands ordering ih =>
      cases operands with
      | none => rw [evaluate, evaluate]
      | some ps => rw [evaluate, evaluate, hoperands (ih ps rfl) h]
  | extremum kind name operands ih =>
      cases operands with
      | none => rw [evaluate, evaluate]
      | some ps => rw [evaluate, evaluate, hoperands (ih ps rfl) h]
  | zScore name size1 success1 size2 success2 ih1 ih2 ih3 ih4 =>
      simp only [reads, List.forall_mem_append] at h
      obtain ⟨⟨⟨h1, h2⟩, h3⟩, h4⟩ := h
      rw [evaluate, evaluate, ih1 h1, ih2 h2, ih3 h3, ih4 h4]
  | pValue name score ih => rw [evaluate, evaluate, ih h]
  | constant | expression | sketchEstimate | sketchSetOp | sketchHistogram =>
      rw [evaluate, evaluate]

theorem isSome_of_evaluate {x : Float} (h : p.evaluate row = .ok x) :
    ∀ name ∈ p.reads, (row.get? name).isSome = true := by
  have hcolumn {name : String} {x : Float} (h : column row name = .ok x) :
      ∀ other ∈ [name], (row.get? other).isSome = true := by
    rw [List.forall_mem_singleton]
    rw [column] at h
    cases hget : row.get? name with
    | none => simp [hget] at h
    | some y => rfl
  have hoperands {ps : List PostAggregator} {xs : List Float}
      (ih : ∀ p ∈ ps, ∀ {x : Float}, p.evaluate row = .ok x →
        ∀ name ∈ p.reads, (row.get? name).isSome = true)
      (hps : evaluateEach row ps = .ok xs) :
      ∀ name ∈ readsOfAll ps, (row.get? name).isSome = true := by
    intro name hname
    rw [readsOfAll_eq_flatMap] at hname
    obtain ⟨p, hp, hname⟩ := List.mem_flatMap.1 hname
    obtain ⟨y, hy⟩ := evaluates_each.1 ⟨xs, hps⟩ p hp
    exact ih p hp hy name hname
  induction p using PostAggregator.induction generalizing x with
  | fieldAccess name fieldName => exact hcolumn h
  | finalizingFieldAccess name fieldName => exact hcolumn h
  | hyperUniqueCardinality name fieldName => exact hcolumn h
  | arithmetic name fn operands ordering ih =>
      cases operands with
      | none => exact List.forall_mem_nil _
      | some ps =>
          obtain ⟨xs, hxs, -⟩ := bind_eq_ok.1 h
          exact hoperands (fun p hp _ => ih ps rfl p hp) hxs
  | extremum kind name operands ih =>
      cases operands with
      | none => exact List.forall_mem_nil _
      | some ps =>
          obtain ⟨xs, hxs, -⟩ := bind_eq_ok.1 h
          exact hoperands (fun p hp _ => ih ps rfl p hp) hxs
  | zScore name size1 success1 size2 success2 ih1 ih2 ih3 ih4 =>
      obtain ⟨n1, hn1, h⟩ := bind_eq_ok.1 h
      obtain ⟨k1, hk1, h⟩ := bind_eq_ok.1 h
      obtain ⟨n2, hn2, h⟩ := bind_eq_ok.1 h
      obtain ⟨k2, hk2, -⟩ := bind_eq_ok.1 h
      simp only [reads, List.forall_mem_append]
      exact ⟨⟨⟨ih1 hn1, ih2 hk1⟩, ih3 hn2⟩, ih4 hk2⟩
  | pValue name score ih =>
      obtain ⟨z, hz, -⟩ := bind_eq_ok.1 h
      exact ih hz
  | constant | expression | sketchEstimate | sketchSetOp | sketchHistogram =>
      exact List.forall_mem_nil _

theorem evaluate_of_extends {x : Float} (h : p.evaluate row = .ok x)
    (hkept : ∀ name y, row.get? name = some y → row'.get? name = some y) :
    p.evaluate row' = .ok x := by
  rw [← h]
  refine (evaluate_congr fun name hname => ?_).symm
  obtain ⟨y, hy⟩ := Option.isSome_iff_exists.1 (isSome_of_evaluate h name hname)
  rw [hy, hkept name y hy]

end Frame

def outputNames (ps : List PostAggregator) : List String :=
  (ps.map outputName).filter (· ≠ "")

theorem mem_outputNames {ps : List PostAggregator} {name : String} :
    name ∈ outputNames ps ↔ (∃ p ∈ ps, p.outputName = name) ∧ name ≠ "" := by
  simp [outputNames]

theorem outputNames_append (ps qs : List PostAggregator) :
    outputNames (ps ++ qs) = outputNames ps ++ outputNames qs := by
  rw [outputNames, List.map_append, List.filter_append]
  rfl

/-- Every name is given once, and none that the row has already. -/
structure Fresh (row : Row) (ps : List PostAggregator) : Prop where
  nodup : (outputNames ps).Nodup
  unused : ∀ name ∈ outputNames ps, row.get? name = none

end PostAggregator

namespace Row

open PostAggregator

def assign (row : Row) (name : String) (x : Float) : Row :=
  if name = "" then row else row.set name x

theorem get?_assign (row : Row) (name : String) (x : Float) (other : String) :
    (row.assign name x).get? other =
      if other = name ∧ name ≠ "" then some x else row.get? other := by
  by_cases hname : name = ""
  · simp [assign, hname]
  · simp [assign, hname, get?_set]

theorem assign_comm (row : Row) {name name' : String} (h : name = "" ∨ name ≠ name') (x y : Float) :
    (row.assign name x).assign name' y = (row.assign name' y).assign name x := by
  by_cases hname : name = ""
  · simp [assign, hname]
  by_cases hname' : name' = ""
  · simp [assign, hname']
  have hne : name' ≠ name := Ne.symm (h.resolve_left hname)
  simp only [assign, if_neg hname, if_neg hname', set]
  rw [Json.insertSorted_comm hne]

end Row

namespace PostAggregator

section Runs

variable {row out : Row} {p q : PostAggregator} {ps qs : List PostAggregator}

theorem evaluateAll_cons_eq_ok :
    evaluateAll row (p :: ps) = .ok out ↔
      ∃ x, p.evaluate row = .ok x ∧ evaluateAll (row.assign p.outputName x) ps = .ok out :=
  bind_eq_ok

theorem evaluateAll_append_eq_ok :
    evaluateAll row (ps ++ qs) = .ok out ↔
      ∃ mid, evaluateAll row ps = .ok mid ∧ evaluateAll mid qs = .ok out := by
  induction ps generalizing row with
  | nil => simp [evaluateAll]
  | cons p ps ih =>
      rw [List.cons_append]
      simp only [evaluateAll_cons_eq_ok, ih]
      constructor
      · rintro ⟨x, hx, mid, hmid, hout⟩
        exact ⟨mid, ⟨x, hx, hmid⟩, hout⟩
      · rintro ⟨mid, ⟨x, hx, hmid⟩, hout⟩
        exact ⟨x, hx, mid, hmid, hout⟩

theorem outputNames_cons (p : PostAggregator) (ps : List PostAggregator) :
    outputNames (p :: ps) =
      if p.outputName = "" then outputNames ps else p.outputName :: outputNames ps := by
  by_cases hname : p.outputName = "" <;> simp [outputNames, hname]

theorem get?_evaluateAll_of_notMem (h : evaluateAll row ps = .ok out) {name : String}
    (hname : name ∉ outputNames ps) : out.get? name = row.get? name := by
  induction ps generalizing row with
  | nil =>
      cases h
      rfl
  | cons p ps ih =>
      obtain ⟨x, -, h⟩ := evaluateAll_cons_eq_ok.1 h
      rw [mem_outputNames, not_and_not_right] at hname
      rw [ih h (fun hmem => ?_), Row.get?_assign, if_neg]
      · rintro ⟨rfl, hne⟩
        exact hne (hname ⟨p, List.mem_cons_self, rfl⟩)
      · obtain ⟨⟨q, hq, heq⟩, hne⟩ := mem_outputNames.1 hmem
        exact hne (hname ⟨q, List.mem_cons_of_mem p hq, heq⟩)

theorem isSome_get?_evaluateAll (h : evaluateAll row ps = .ok out) (name : String) :
    (out.get? name).isSome = true ↔ (row.get? name).isSome = true ∨ name ∈ outputNames ps := by
  induction ps generalizing row with
  | nil =>
      cases h
      simp [outputNames]
  | cons p ps ih =>
      obtain ⟨x, -, h⟩ := evaluateAll_cons_eq_ok.1 h
      rw [ih h, Row.get?_assign, outputNames_cons]
      by_cases hempty : p.outputName = ""
      · simp [hempty]
      · by_cases hname : name = p.outputName
        · simp [hname, hempty]
        · simp [hname, hempty]

theorem Fresh.tail (h : Fresh row (p :: ps)) (x : Float) :
    Fresh (row.assign p.outputName x) ps ∧ p.outputName ∉ outputNames ps := by
  obtain ⟨hnodup, hunused⟩ := h
  rw [outputNames_cons] at hnodup hunused
  by_cases hempty : p.outputName = ""
  · rw [if_pos hempty] at hnodup hunused
    rw [Row.assign, if_pos hempty]
    refine ⟨⟨hnodup, hunused⟩, fun hmem => ?_⟩
    exact (mem_outputNames.1 hmem).2 hempty
  · rw [if_neg hempty, List.nodup_cons] at hnodup
    rw [if_neg hempty, List.forall_mem_cons] at hunused
    refine ⟨⟨hnodup.2, fun name hname => ?_⟩, hnodup.1⟩
    rw [Row.get?_assign, if_neg, hunused.2 name hname]
    rintro ⟨rfl, -⟩
    exact hnodup.1 hname

theorem Fresh.evaluate_out (hfresh : Fresh row ps) (h : evaluateAll row ps = .ok out) :
    ∀ p ∈ ps, ∃ x, p.evaluate out = .ok x ∧
      (p.outputName ≠ "" → out.get? p.outputName = some x) := by
  induction ps generalizing row with
  | nil => exact List.forall_mem_nil _
  | cons p ps ih =>
      -- What the first one looked up is on the final row as it was on the first.
      have hrow (name : String) (y : Float) (hy : row.get? name = some y) :
          out.get? name = some y := by
        have hnotMem : name ∉ outputNames (p :: ps) := fun hmem => by
          simp [hfresh.unused name hmem] at hy
        rw [get?_evaluateAll_of_notMem h hnotMem, hy]
      obtain ⟨x, hx, h⟩ := evaluateAll_cons_eq_ok.1 h
      obtain ⟨htail, hlast⟩ := hfresh.tail x
      refine List.forall_mem_cons.2 ⟨⟨x, evaluate_of_extends hx hrow, fun hne => ?_⟩, ih htail h⟩
      rw [get?_evaluateAll_of_notMem h hlast, Row.get?_assign, if_pos ⟨rfl, hne⟩]

/-- A post-aggregator does not look up what another records. -/
def Ignores (p q : PostAggregator) : Prop :=
  q.outputName = "" ∨ q.outputName ∉ p.reads

theorem Ignores.evaluate_assign (h : p.Ignores q) (row : Row) (x : Float) :
    p.evaluate (row.assign q.outputName x) = p.evaluate row := by
  refine evaluate_congr fun name hname => ?_
  rw [Row.get?_assign, if_neg]
  rintro ⟨rfl, hne⟩
  exact h.elim hne fun hnot => hnot hname

theorem evaluateAll_swap_eq_ok (hpq : p.Ignores q) (hqp : q.Ignores p)
    (hne : p.outputName = "" ∨ p.outputName ≠ q.outputName)
    (h : evaluateAll row (p :: q :: ps) = .ok out) : evaluateAll row (q :: p :: ps) = .ok out := by
  obtain ⟨x, hx, h⟩ := evaluateAll_cons_eq_ok.1 h
  obtain ⟨y, hy, h⟩ := evaluateAll_cons_eq_ok.1 h
  rw [hqp.evaluate_assign] at hy
  rw [row.assign_comm hne] at h
  refine evaluateAll_cons_eq_ok.2 ⟨y, hy, evaluateAll_cons_eq_ok.2 ⟨x, ?_, h⟩⟩
  rw [hpq.evaluate_assign, hx]

end Runs

/-- What evaluation makes of a row: columns are added under the names given and none is changed, and
each post-aggregator has on the final row the value that is recorded for it. -/
structure Completes (row : Row) (ps : List PostAggregator) (out : Row) : Prop where
  columns (name : String) :
    (out.get? name).isSome = true ↔ (row.get? name).isSome = true ∨ name ∈ outputNames ps
  kept (name : String) (x : Float) : row.get? name = some x → out.get? name = some x
  values (p : PostAggregator) : p ∈ ps → ∃ x, p.evaluate out = .ok x ∧
    (p.outputName ≠ "" → out.get? p.outputName = some x)

/-- Names that are given once and are not columns yet make evaluation a single assignment. Neighbours
that ignore each other can change places then. -/
theorem evaluateAll_single_assignment (row : Row) (ps : List PostAggregator)
    (hnodup : (outputNames ps).Nodup) (hunused : ∀ name ∈ outputNames ps, row.get? name = none) :
    (∀ out, evaluateAll row ps = .ok out → Completes row ps out) ∧
    (∀ before p q after, ps = before ++ p :: q :: after → p.Ignores q → q.Ignores p → ∀ out,
      evaluateAll row ps = .ok out ↔ evaluateAll row (before ++ q :: p :: after) = .ok out) := by
  have hfresh : Fresh row ps := ⟨hnodup, hunused⟩
  constructor
  · intro out h
    refine ⟨isSome_get?_evaluateAll h, fun name x hx => ?_, hfresh.evaluate_out h⟩
    have hnotMem : name ∉ outputNames ps := fun hmem => by
      simp [hunused name hmem] at hx
    rw [get?_evaluateAll_of_notMem h hnotMem, hx]
  · rintro before p q after rfl hpq hqp out
    have hne : p.outputName = "" ∨ p.outputName ≠ q.outputName := by
      rw [outputNames_append] at hnodup
      have hpair := (List.nodup_append.1 hnodup).2.1
      rw [outputNames_cons, outputNames_cons] at hpair
      by_cases hp : p.outputName = ""
      · exact .inl hp
      · refine .inr fun heq => ?_
        rw [if_neg hp, if_neg (heq ▸ hp), heq] at hpair
        exact (List.nodup_cons.1 hpair).1 List.mem_cons_self
    have hne' : q.outputName = "" ∨ q.outputName ≠ p.outputName := by
      rcases hne with hp | hne
      · by_cases hq : q.outputName = ""
        · exact .inl hq
        · exact .inr fun heq => hq (heq.trans hp)
      · exact .inr hne.symm
    rw [evaluateAll_append_eq_ok, evaluateAll_append_eq_ok]
    constructor
    · rintro ⟨mid, hmid, h⟩
      exact ⟨mid, hmid, evaluateAll_swap_eq_ok hpq hqp hne h⟩
    · rintro ⟨mid, hmid, h⟩
      exact ⟨mid, hmid, evaluateAll_swap_eq_ok hqp hpq hne' h⟩

def halfOf (column : String) : PostAggregator :=
  .arithmetic "half" .divide (some [access column, .constant "two" (.ofFloat 2)]) none

def wholeOf (column : String) : PostAggregator :=
  .extremum .longLeast "whole" (some [finalizingAccess column])

def twiceOf (column : String) : PostAggregator :=
  .arithmetic "twice" .add (some [access column, access column]) none

theorem evaluateAll_single_assignment_halves :
    (∀ name ∈ outputNames [halfOf "n", wholeOf "half", twiceOf "n"],
      (Row.ofList [("n", 3)]).get? name = none) ∧
    ∃ out,
      evaluateAll (Row.ofList [("n", 3)]) [halfOf "n", wholeOf "half", twiceOf "n"] = .ok out ∧
      Completes (Row.ofList [("n", 3)]) [halfOf "n", wholeOf "half", twiceOf "n"] out ∧
      evaluateAll (Row.ofList [("n", 3)]) [halfOf "n", twiceOf "n", wholeOf "half"] = .ok out := by
  have hnodup : (outputNames [halfOf "n", wholeOf "half", twiceOf "n"]).Nodup := by decide
  have hunused : ∀ name ∈ outputNames [halfOf "n", wholeOf "half", twiceOf "n"],
      (Row.ofList [("n", 3)]).get? name = none := by
    intro name hname
    have hne : name ≠ "n" := by
      rintro rfl
      revert hname
      decide
    change ([("n", 3)] : List (String × Float)).lookup name = none
    rw [Json.lookup_cons_ite, if_neg hne]
    rfl
  have hrun : ∃ out, evaluateAll (Row.ofList [("n", 3)]) [halfOf "n", wholeOf "half", twiceOf "n"] =
      .ok out := ⟨_, rfl⟩
  obtain ⟨out, hout⟩ := hrun
  obtain ⟨hcompletes, hswap⟩ := evaluateAll_single_assignment _ _ hnodup hunused
  exact ⟨hunused, out, hout, hcompletes out hout,
    (hswap [halfOf "n"] _ _ [] rfl (.inr (by decide)) (.inr (by decide)) out).1 hout⟩

end PostAggregator

end TenantQuery
