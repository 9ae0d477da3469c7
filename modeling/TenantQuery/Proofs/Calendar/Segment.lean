import Mathlib.Data.Int.Range
import Mathlib.Data.List.Sort
import Mathlib.Order.Bounds.Basic
import TenantQuery.Calendar.Segment
import TenantQuery.Proofs.Calendar.Unit
import TenantQuery.Proofs.Outcome
import TenantQuery.Proofs.Text

namespace TenantQuery

open Calendar Outcome

/-- An instant at which a unit begins. -/
def Instant.Aligned (t : Instant) (c : Component) : Prop :=
  t.beginningOf c = t

instance (t : Instant) (c : Component) : Decidable (t.Aligned c) :=
  inferInstanceAs (Decidable (_ = _))

namespace Component

variable {c : Component} {k : Int} {t : Instant}

theorem aligned_startOf : (c.startOf k).Aligned c := by
  rw [Instant.Aligned, beginningOf_eq, number_startOf]

theorem startOf_number (h : t.Aligned c) : c.startOf (c.number t) = t := by
  rw [← beginningOf_eq]
  exact h

def ceiling (c : Component) (t : Instant) : Int :=
  c.number (t.addNanos (-1)) + 1

theorem startOf_lt_iff : c.startOf k < t ↔ k < c.ceiling t := by
  have hbefore := startOf_le_iff (c := c) (k := k) (t := t.addNanos (-1))
  have hnanos : (t.addNanos (-1)).nanos = t.nanos - 1 := rfl
  rw [Instant.le_iff, hnanos] at hbefore
  rw [Instant.lt_iff, ceiling]
  omega

theorem le_startOf_iff : t ≤ c.startOf k ↔ c.ceiling t ≤ k := by
  have hlt := startOf_lt_iff (c := c) (k := k) (t := t)
  rw [Instant.lt_iff] at hlt
  rw [Instant.le_iff]
  omega

@[simp] theorem ceiling_startOf : c.ceiling (c.startOf k) = k := by
  have hlt (j : Int) : j < c.ceiling (c.startOf k) ↔ j < k := by
    rw [← startOf_lt_iff, startOf_lt_startOf]
  have hbelow := hlt k
  have hlast := hlt (k - 1)
  omega

/-- The beginning of the first unit from an instant on is the least aligned instant from there on. -/
theorem isLeast_ceiling : IsLeast {u | u.Aligned c ∧ t ≤ u} (c.startOf (c.ceiling t)) := by
  refine ⟨⟨aligned_startOf, le_startOf_iff.2 (Int.le_refl _)⟩, ?_⟩
  rintro u ⟨haligned, hle⟩
  rw [← startOf_number haligned] at hle ⊢
  exact startOf_le_startOf.2 (le_startOf_iff.1 hle)

end Component

theorem range_of_lt {a b : Int} (h : a < b) : Int.range a b = a :: Int.range (a + 1) b := by
  rw [Int.range, Int.range, show (b - a).toNat = (b - (a + 1)).toNat + 1 by omega,
    List.range_succ_eq_map, List.map_cons, List.map_map]
  congr 1
  · simp
  · refine List.map_congr_left fun i _ => ?_
    simp only [Function.comp_apply, Nat.succ_eq_add_one, Int.natCast_add]
    omega

theorem range_of_le {a b : Int} (h : b ≤ a) : Int.range a b = [] := by
  rw [Int.range, show (b - a).toNat = 0 by omega]
  rfl

theorem pairwise_range (a b : Int) : (Int.range a b).Pairwise (· < ·) := by
  rw [Int.range, List.pairwise_map]
  exact List.pairwise_lt_range.imp fun h => by omega

namespace Granularity

variable {g : Granularity} {c : Component}

theorem component_ne_unset (h : g.component? = some c) : c ≠ .unset := by
  rintro rfl
  cases g <;> cases h

theorem leastNanos_le (h : g.component? = some c) (k : Int) :
    (c.startOf k).nanos + c.leastNanos ≤ (c.startOf (k + 1)).nanos := by
  cases g <;> cases h
  · simp only [Component.startOf, Component.leastNanos, Int.add_mul]
    omega
  · simp only [Component.startOf, Component.leastNanos, Instant.ofDay, Int.add_mul]
    omega
  · have hlength := le_daysInMonth (k / 12) (k % 12 + 1)
    simp only [Component.startOf, Component.leastNanos, monthStart, Instant.ofDay, firstDay_succ,
      ← Int.add_mul, nanosPerDay, nanosPerSecond]
    omega
  · have hlength := (daysBeforeYear_lt_succ k).1
    simp only [Component.startOf, Component.leastNanos, monthStart, Instant.ofDay, firstDay,
      dayNumber, ← Int.add_mul]
    rw [show 12 * k / 12 = k by omega, show 12 * k % 12 + 1 = 1 by omega,
      show 12 * (k + 1) / 12 = k + 1 by omega, show 12 * (k + 1) % 12 + 1 = 1 by omega,
      daysBeforeMonth_one, daysBeforeMonth_one]
    simp only [nanosPerDay, nanosPerSecond]
    omega

theorem leastNanos_mul_le (h : g.component? = some c) (k : Int) (n : Nat) :
    (c.startOf k).nanos + n * c.leastNanos ≤ (c.startOf (k + n)).nanos := by
  induction n with
  | zero => simp
  | succ n ih =>
      have hstep := leastNanos_le h (k + n)
      rw [Int.natCast_add, Int.natCast_one, Int.add_mul, Int.one_mul, ← Int.add_assoc k]
      omega

theorem leastNanos_pos (h : g.component? = some c) : 0 < c.leastNanos := by
  cases g <;> cases h <;> decide

end Granularity

namespace Component

variable {c : Component}

/-- The units that begin before `stop`, when the bound on their number is no obstacle. -/
theorem beginnings_eq (hc : c ≠ .unset) (stop : Instant) {fuel : Nat} {k : Int}
    (hfuel : (c.ceiling stop - k).toNat ≤ fuel) :
    c.beginnings stop fuel (c.startOf k) = (Int.range k (c.ceiling stop)).map c.startOf := by
  induction fuel generalizing k with
  | zero => rw [beginnings, range_of_le (by omega), List.map_nil]
  | succ fuel ih =>
      rw [beginnings, add_startOf (shifts_one hc)]
      by_cases hlt : k < c.ceiling stop
      · rw [if_pos (startOf_lt_iff.2 hlt), ih (by omega), range_of_lt hlt, List.map_cons]
      · rw [if_neg (mt startOf_lt_iff.1 hlt), range_of_le (by omega), List.map_nil]

end Component

namespace Segment

variable {g : Granularity} {c : Component}

def ofUnit (g : Granularity) (c : Component) (k : Int) : Segment :=
  ⟨c.startOf k, g⟩

/-- A segment of a granularity that is one of its units. -/
structure Aligned (g : Granularity) (c : Component) (s : Segment) : Prop where
  granularity : s.granularity = g
  start : s.start.Aligned c

theorem Aligned.ofUnit_number {s : Segment} (h : s.Aligned g c) :
    ofUnit g c (c.number s.start) = s := by
  rw [ofUnit, Component.startOf_number h.start, ← h.granularity]

end Segment

namespace Interval

variable {g : Granularity} {c : Component}

/-- An interval is cut into the units from the one that holds its beginning up to its end. -/
theorem segments_eq (hg : g.component? = some c) (i : Interval) :
    i.segments g =
      .ok ((Int.range (c.number i.start) (c.ceiling i.stop)).map (Segment.ofUnit g c)) := by
  have hfuel : (c.ceiling i.stop - c.number i.start).toNat ≤
      ((i.stop.nanos - (c.startOf (c.number i.start)).nanos) / c.leastNanos + 1).toNat := by
    by_cases hlt : c.number i.start < c.ceiling i.stop
    · -- The last unit begins before the end, and every unit before it takes its least length.
      obtain ⟨n, hn⟩ := Int.le.dest (Int.le_sub_one_of_lt hlt)
      have hlast : c.startOf (c.number i.start + n) < i.stop :=
        Component.startOf_lt_iff.2 (by omega)
      have hlength := Granularity.leastNanos_mul_le hg (c.number i.start) n
      have hquotient : (n : Int) ≤
          (i.stop.nanos - (c.startOf (c.number i.start)).nanos) / c.leastNanos := by
        rw [Int.le_ediv_iff_mul_le (Granularity.leastNanos_pos hg)]
        rw [Instant.lt_iff] at hlast
        omega
      omega
    · omega
  simp only [segments, hg, Component.beginningOf_eq]
  rw [Component.beginnings_eq (Granularity.component_ne_unset hg) i.stop hfuel, List.map_map]
  rfl

end Interval

attribute [ext] Segment

namespace Segment

theorem le_trans (a b c : Segment) (h : le a b = true) (h' : le b c = true) : le a c = true := by
  simp only [le, Instant.lt_iff, Bool.or_eq_true, Bool.and_eq_true, decide_eq_true_eq,
    beq_iff_eq] at h h' ⊢
  rcases h with h | ⟨heq, h⟩
  · rcases h' with h' | ⟨heq', -⟩
    · exact .inl (by omega)
    · exact .inl (by rw [← heq']; exact h)
  · rcases h' with h' | ⟨heq', h'⟩
    · exact .inl (by rw [heq]; exact h')
    · exact .inr ⟨heq.trans heq', Text.lexLe_trans h h'⟩

theorem le_total (a b : Segment) : (le a b || le b a) = true := by
  have hname := Text.lexLe_total (a.granularity.name.toList.map Char.toNat)
    (b.granularity.name.toList.map Char.toNat)
  simp only [le, Text.codesLe, Instant.lt_iff, Bool.or_eq_true, Bool.and_eq_true,
    decide_eq_true_eq, beq_iff_eq] at hname ⊢
  rcases Int.lt_trichotomy a.start.nanos b.start.nanos with hlt | heq | hgt
  · exact .inl (.inl hlt)
  · have hstart : a.start = b.start := by
      rw [← Instant.mk.injEq] at heq
      exact heq
    exact hname.imp (fun h => .inr ⟨hstart, h⟩) fun h => .inr ⟨hstart.symm, h⟩
  · exact .inr (.inl hgt)

theorem mem_dropRepeats {s : Segment} {l : List Segment} : s ∈ dropRepeats l ↔ s ∈ l := by
  fun_induction dropRepeats l with
  | case1 => exact Iff.rfl
  | case2 t => exact Iff.rfl
  | case3 t rest ih =>
      rw [ih]
      simp
  | case4 a t rest hne ih => rw [List.mem_cons, ih, ← List.mem_cons]

theorem eq_of_le_of_le {a b : Segment} (h : le a b = true) (h' : le b a = true) :
    a.start = b.start ∧ a.granularity.name = b.granularity.name := by
  simp only [le, Instant.lt_iff, Bool.or_eq_true, Bool.and_eq_true, decide_eq_true_eq,
    beq_iff_eq] at h h'
  rcases h with h | ⟨hstart, hname⟩
  · rcases h' with h' | ⟨hstart', -⟩
    · omega
    · rw [hstart'] at h
      omega
  · rcases h' with h' | ⟨-, hname'⟩
    · rw [hstart] at h'
      omega
    · exact ⟨hstart, Text.codesLe_antisymm hname hname'⟩

def Ordered (l : List Segment) : Prop :=
  ∀ a ∈ l, ∀ b ∈ l, le a b = true → le b a = true → a = b

theorem ordered_of_granularity {g : Granularity} {l : List Segment}
    (hg : ∀ s ∈ l, s.granularity = g) : Ordered l := by
  intro a ha b hb hle hle'
  exact Segment.ext (eq_of_le_of_le hle hle').1 ((hg a ha).trans (hg b hb).symm)

theorem ordered_of_name {l : List Segment}
    (hname : ∀ s ∈ l, Granularity.ofName s.granularity.name = s.granularity) : Ordered l := by
  intro a ha b hb hle hle'
  obtain ⟨hstart, heq⟩ := eq_of_le_of_le hle hle'
  refine Segment.ext hstart ?_
  rw [← hname a ha, ← hname b hb, heq]

theorem pairwise_dropRepeats {l : List Segment} (hordered : Ordered l)
    (h : l.Pairwise fun a b => le a b = true) :
    (dropRepeats l).Pairwise fun a b => le a b = true ∧ a ≠ b := by
  fun_induction dropRepeats l with
  | case1 => exact .nil
  | case2 t => exact List.pairwise_singleton _ _
  | case3 t rest ih =>
      exact ih (fun a ha b hb => hordered a (.tail _ ha) b (.tail _ hb)) (List.pairwise_cons.1 h).2
  | case4 a t rest hne ih =>
      obtain ⟨hle, h⟩ := List.pairwise_cons.1 h
      refine List.pairwise_cons.2 ⟨fun s hs => ?_,
        ih (fun a ha b hb => hordered a (.tail _ ha) b (.tail _ hb)) h⟩
      rw [mem_dropRepeats] at hs
      refine ⟨hle s hs, ?_⟩
      rintro rfl
      -- Were `a` left once more, it would also come before the next segment, which differs from it.
      rcases List.mem_cons.1 hs with heq | hmem
      · exact hne heq
      · exact hne (hordered a (.head _) t (.tail _ (.head _)) (hle t (.head _))
          ((List.pairwise_cons.1 h).1 a hmem))

theorem mem_normalize {s : Segment} {l : List Segment} : s ∈ normalize l ↔ s ∈ l := by
  rw [normalize, mem_dropRepeats, List.mem_mergeSort]

theorem pairwise_le_normalize {l : List Segment} (hordered : Ordered l) :
    (normalize l).Pairwise fun a b => le a b = true ∧ a ≠ b := by
  refine pairwise_dropRepeats (fun a ha b hb => ?_) (List.pairwise_mergeSort le_trans le_total l)
  exact hordered a (List.mem_mergeSort.1 ha) b (List.mem_mergeSort.1 hb)

theorem pairwise_normalize {g : Granularity} {l : List Segment}
    (hg : ∀ s ∈ l, s.granularity = g) : (normalize l).Pairwise fun a b => a.start < b.start := by
  refine (pairwise_le_normalize (ordered_of_granularity hg)).imp_of_mem ?_
  rintro ⟨a, _⟩ ⟨b, _⟩ ha hb ⟨hle, hne⟩
  obtain rfl := hg _ (mem_normalize.1 ha)
  obtain rfl := hg _ (mem_normalize.1 hb)
  simp only [le, Bool.or_eq_true, Bool.and_eq_true, decide_eq_true_eq, beq_iff_eq] at hle
  rcases hle with hlt | ⟨rfl, -⟩
  · exact hlt
  · exact absurd rfl hne

theorem eq_of_mem_iff {l l' : List Segment} (h : l.Pairwise fun a b => a.start < b.start)
    (h' : l'.Pairwise fun a b => a.start < b.start) (hmem : ∀ s, s ∈ l ↔ s ∈ l') : l = l' := by
  have : Std.Antisymm fun a b : Segment => a.start < b.start :=
    ⟨fun _ _ hab hba => absurd hab (Int.lt_asymm hba)⟩
  have : Std.Irrefl fun a b : Segment => a.start < b.start := ⟨fun a => Int.lt_irrefl a.start.nanos⟩
  exact h.eq_of_mem_iff h' hmem

theorem normalize_eq_of_mem_iff {l l' : List Segment} (hordered : Ordered l)
    (hmem : ∀ s, s ∈ l ↔ s ∈ l') : normalize l = normalize l' := by
  have hordered' : Ordered l' := fun a ha b hb => hordered a ((hmem a).2 ha) b ((hmem b).2 hb)
  obtain ⟨hsorted, hnodup⟩ := List.pairwise_and_iff.1 (pairwise_le_normalize hordered)
  obtain ⟨hsorted', hnodup'⟩ := List.pairwise_and_iff.1 (pairwise_le_normalize hordered')
  have hperm : (normalize l).Perm (normalize l') :=
    (List.perm_ext_iff_of_nodup hnodup hnodup').2 fun s => by
      rw [mem_normalize, mem_normalize, hmem]
  refine hperm.eq_of_pairwise (fun a b ha hb => ?_) hsorted hsorted'
  exact hordered a (mem_normalize.1 ha) b ((hmem b).2 (mem_normalize.1 hb))

theorem normalize_eq_self {g : Granularity} {l : List Segment} (hg : ∀ s ∈ l, s.granularity = g)
    (h : l.Pairwise fun a b => a.start < b.start) : normalize l = l :=
  eq_of_mem_iff (pairwise_normalize hg) h fun _ => mem_normalize

theorem normalize_congr {g : Granularity} {l l' : List Segment} (hg : ∀ s ∈ l, s.granularity = g)
    (hmem : ∀ s, s ∈ l ↔ s ∈ l') : normalize l = normalize l' :=
  normalize_eq_of_mem_iff (ordered_of_granularity hg) hmem

variable {g : Granularity} {c : Component}

theorem pairwise_ofUnit {ks : List Int} (h : ks.Pairwise (· < ·)) :
    (ks.map (ofUnit g c)).Pairwise fun a b => a.start < b.start :=
  List.pairwise_map.2 (h.imp Component.startOf_lt_startOf.2)

theorem normalize_ofUnit {ks : List Int} (h : ks.Pairwise (· < ·)) :
    normalize (ks.map (ofUnit g c)) = ks.map (ofUnit g c) := by
  refine normalize_eq_self (g := g) (fun s hs => ?_) (pairwise_ofUnit h)
  obtain ⟨k, -, rfl⟩ := List.mem_map.1 hs
  rfl

theorem exists_units {l : List Segment} (h : ∀ s ∈ l, s.Aligned g c) :
    ∃ ks : List Int, normalize l = ks.map (ofUnit g c) ∧ ks.Pairwise (· < ·) := by
  have haligned : ∀ s ∈ normalize l, s.Aligned g c := fun s hs => h s (mem_normalize.1 hs)
  have hunits : ((normalize l).map (c.number ·.start)).map (ofUnit g c) = normalize l := by
    rw [List.map_map]
    exact (List.map_congr_left fun s hs => (haligned s hs).ofUnit_number).trans (List.map_id' _)
  refine ⟨(normalize l).map (c.number ·.start), hunits.symm, ?_⟩
  have hpairwise := pairwise_normalize fun s hs => (h s hs).granularity
  rw [← hunits, List.pairwise_map] at hpairwise
  exact hpairwise.imp Component.startOf_lt_startOf.1

end Segment

/-- Runs of numbers, each from its first number up to, but without, its last. The current run has
come from `a` up to `b`. -/
def runsFrom (a b : Int) : List Int → List (Int × Int)
  | [] => [(a, b)]
  | k :: ks => if b < k then (a, b) :: runsFrom k (k + 1) ks else runsFrom a (max b (k + 1)) ks

def runs : List Int → List (Int × Int)
  | [] => []
  | k :: ks => runsFrom k (k + 1) ks

theorem mem_runsFrom {a b : Int} {ks : List Int} (hks : (a :: ks).Pairwise (· ≤ ·)) (x : Int) :
    (∃ r ∈ runsFrom a b ks, r.1 ≤ x ∧ x < r.2) ↔ (a ≤ x ∧ x < b) ∨ x ∈ ks := by
  induction ks generalizing a b with
  | nil => simp [runsFrom]
  | cons k ks ih =>
      obtain ⟨ha, hks⟩ := List.pairwise_cons.1 hks
      have hak := ha k List.mem_cons_self
      rw [runsFrom, List.mem_cons]
      split
      · have hsingle : (k ≤ x ∧ x < k + 1) ↔ x = k := by omega
        simp only [List.mem_cons, exists_eq_or_imp, ih hks, hsingle]
      · have hlonger : (a ≤ x ∧ x < max b (k + 1)) ↔ (a ≤ x ∧ x < b) ∨ x = k := by omega
        obtain ⟨-, hks⟩ := List.pairwise_cons.1 hks
        rw [ih (List.pairwise_cons.2 ⟨fun j hj => ha j (List.mem_cons_of_mem k hj), hks⟩),
          hlonger, or_assoc]

theorem mem_runs {ks : List Int} (hks : ks.Pairwise (· ≤ ·)) (x : Int) :
    (∃ r ∈ runs ks, r.1 ≤ x ∧ x < r.2) ↔ x ∈ ks := by
  cases ks with
  | nil => simp [runs]
  | cons k ks =>
      have hsingle : (k ≤ x ∧ x < k + 1) ↔ x = k := by omega
      rw [runs, mem_runsFrom hks, List.mem_cons, hsingle]

theorem runsFrom_range (a k : Int) (n : Nat) :
    runsFrom a k (Int.range k (k + n)) = [(a, k + n)] := by
  induction n generalizing k with
  | zero => rw [Int.natCast_zero, Int.add_zero, range_of_le (Int.le_refl k), runsFrom]
  | succ n ih =>
      have hstep := ih (k + 1)
      rw [show k + 1 + (n : Int) = k + ((n + 1 : Nat) : Int) by omega] at hstep
      rw [range_of_lt (by omega), runsFrom, if_neg (by omega),
        Int.max_eq_right (by omega), hstep]

theorem runs_range {a b : Int} (h : a < b) : runs (Int.range a b) = [(a, b)] := by
  obtain ⟨n, hn⟩ := Int.le.dest (Int.add_one_le_of_lt h)
  rw [range_of_lt h, runs, ← hn, runsFrom_range]

def Component.span (c : Component) (run : Int × Int) : Interval :=
  ⟨c.startOf run.1, c.startOf run.2⟩

namespace Segment

variable {g : Granularity} {c : Component}

theorem mergeFrom_ofUnit (hc : c ≠ .unset) (a b : Int) (ks : List Int) :
    mergeFrom g c ⟨c.startOf a, c.startOf b⟩ (ks.map (ofUnit g c)) =
      .ok ((runsFrom a (b + 1) ks).map c.span) := by
  induction ks generalizing a b with
  | nil => simp only [List.map_nil, mergeFrom, runsFrom, List.map_cons, Component.span,
      Component.add_startOf (Component.shifts_one hc)]
  | cons k ks ih =>
      simp only [List.map_cons, mergeFrom, ofUnit, runsFrom, ne_eq, not_true, if_false,
        Component.add_startOf (Component.shifts_one hc), Component.startOf_lt_startOf]
      by_cases hgap : b + 1 < k
      · rw [if_pos hgap, if_pos hgap, ih, ok_bind, List.map_cons]
        rfl
      · have hstop : (if b < k then c.startOf k else c.startOf b) = c.startOf (max b k) := by
          split
          · rw [Int.max_eq_right (by omega)]
          · rw [Int.max_eq_left (by omega)]
        rw [if_neg hgap, if_neg hgap, hstop, ih,
          show max b k + 1 = max (b + 1) (k + 1) by omega]

theorem merge_eq (hg : g.component? = some c) {l : List Segment} {ks : List Int}
    (hks : normalize l = ks.map (ofUnit g c)) : merge l = .ok ((runs ks).map c.span) := by
  have hc := Granularity.component_ne_unset hg
  rw [merge, hks]
  cases ks with
  | nil => rfl
  | cons k ks =>
      have hfirst := mergeFrom_ofUnit (g := g) hc k k (k :: ks)
      rw [runsFrom, if_neg (by omega), Int.max_self] at hfirst
      simp only [List.map_cons, ofUnit, hg, runs] at hfirst ⊢
      exact hfirst

theorem segments_span (hg : g.component? = some c) (rs : List (Int × Int)) :
    (IntervalList.mk (some (rs.map c.span))).segments g =
      .ok (normalize ((rs.flatMap fun r => Int.range r.1 r.2).map (ofUnit g c))) := by
  have hcut : (fun i : Interval => i.segments g) = fun i =>
      pure ((Int.range (c.number i.start) (c.ceiling i.stop)).map (ofUnit g c)) :=
    funext fun i => i.segments_eq hg
  have hrun : ((fun i : Interval =>
      (Int.range (c.number i.start) (c.ceiling i.stop)).map (ofUnit g c)) ∘ c.span) =
        fun r => (Int.range r.1 r.2).map (ofUnit g c) := by
    funext r
    simp only [Function.comp_apply, Component.span, Component.number_startOf,
      Component.ceiling_startOf]
  rw [IntervalList.segments, Option.getD_some, hcut, List.mapM_pure, List.map_map, hrun,
    List.map_flatMap, List.flatMap_def]
  rfl

theorem merge_segments (hg : g.component? = some c) {i : Interval} (hi : i.start < i.stop) :
    ∃ segments, i.segments g = .ok segments ∧
      merge segments = .ok [⟨i.start.beginningOf c, c.startOf (c.ceiling i.stop)⟩] := by
  refine ⟨_, i.segments_eq hg, ?_⟩
  have hlt : c.number i.start < c.ceiling i.stop := by
    refine Component.startOf_lt_iff.1 ?_
    exact Int.lt_of_le_of_lt (Component.startOf_le_iff.2 (Int.le_refl _)) hi
  rw [merge_eq hg (normalize_ofUnit (pairwise_range _ _)), runs_range hlt, List.map_singleton,
    Component.span, Component.beginningOf_eq]

/-- Cutting the intervals that segments are merged into gives the segments back, in order and each
once. -/
theorem segments_merge (hg : g.component? = some c) {l : List Segment}
    (hl : ∀ s ∈ l, s.Aligned g c) :
    ∃ is, IntervalList.ofSegments l = .ok is ∧ is.segments g = .ok (normalize l) := by
  obtain ⟨ks, hks, hsorted⟩ := exists_units hl
  refine ⟨⟨some ((runs ks).map c.span)⟩, ?_, ?_⟩
  · rw [IntervalList.ofSegments, merge_eq hg hks, map_ok]
  · have hmem (k : Int) : k ∈ (runs ks).flatMap (fun r => Int.range r.1 r.2) ↔ k ∈ ks := by
      rw [List.mem_flatMap, ← mem_runs (hsorted.imp Int.le_of_lt)]
      simp only [Int.mem_range_iff]
    rw [segments_span hg, hks, ← normalize_ofUnit hsorted]
    refine congrArg _ (normalize_congr (g := g) (fun s hs => ?_) fun s => ?_)
    · obtain ⟨k, -, rfl⟩ := List.mem_map.1 hs
      rfl
    · simp only [List.mem_map, hmem]

/-- Cutting and merging are inverse to each other, for every granularity that time can be cut into.
An interval that is cut and merged is widened to whole units, which leaves one of whole units alone;
whole units that are merged and cut are sorted, and none is lost, added or left twice. -/
theorem segments_merge_inverse (g : Granularity) (hg : g ∈ [.hour, .day, .month, .year]) :
    ∃ c, g.component? = some c ∧
      (∀ i : Interval, i.start < i.stop → ∃ segments stop, i.segments g = .ok segments ∧
        merge segments = .ok [⟨i.start.beginningOf c, stop⟩] ∧
        IsLeast {t | t.Aligned c ∧ i.stop ≤ t} stop ∧
        (i.start.Aligned c → i.stop.Aligned c → merge segments = .ok [i])) ∧
      ∀ l : List Segment, (∀ s ∈ l, s.Aligned g c) →
        ∃ is, IntervalList.ofSegments l = .ok is ∧ is.segments g = .ok (normalize l) ∧
          (normalize l).Pairwise (fun a b => a.start < b.start) ∧ ∀ s, s ∈ normalize l ↔ s ∈ l := by
  obtain ⟨c, hc⟩ : ∃ c, g.component? = some c := by
    simp only [List.mem_cons, List.not_mem_nil, or_false] at hg
    rcases hg with rfl | rfl | rfl | rfl <;> exact ⟨_, rfl⟩
  refine ⟨c, hc, fun i hi => ?_, fun l hl => ?_⟩
  · obtain ⟨segments, hsegments, hmerge⟩ := merge_segments hc hi
    refine ⟨segments, _, hsegments, hmerge, Component.isLeast_ceiling, fun hstart hstop => ?_⟩
    rw [hmerge, hstart, ← Component.startOf_number hstop, Component.ceiling_startOf,
      Component.startOf_number hstop]
  · obtain ⟨is, hmerge, hcut⟩ := segments_merge hc hl
    exact ⟨is, hmerge, hcut, pairwise_normalize fun s hs => (hl s hs).granularity,
      fun s => mem_normalize⟩

def monthOf2024 (month : Int) : Segment :=
  ⟨.ofFields 2024 month 1 0 0 0 0, .month⟩

theorem segments_merge_inverse_quarter :
    Granularity.month ∈ [.hour, .day, .month, .year] ∧
    (∃ segments, Interval.segments ⟨(monthOf2024 1).start, (monthOf2024 4).start⟩ .month =
        .ok segments ∧
      merge segments = .ok [⟨(monthOf2024 1).start, (monthOf2024 4).start⟩]) ∧
    ∃ is, IntervalList.ofSegments [monthOf2024 3, monthOf2024 1, monthOf2024 3] = .ok is ∧
      is.segments .month = .ok [monthOf2024 1, monthOf2024 3] := by
  have hmonth : Granularity.month ∈ [.hour, .day, .month, .year] := by simp
  obtain ⟨c, hc, hmerge, hcut⟩ := segments_merge_inverse .month hmonth
  obtain rfl : Component.month = c := Option.some.inj hc
  refine ⟨hmonth, ?_, ?_⟩
  · obtain ⟨segments, _, hsegments, -, -, hwhole⟩ :=
      hmerge ⟨(monthOf2024 1).start, (monthOf2024 4).start⟩ (by decide)
    exact ⟨segments, hsegments, hwhole (by decide) (by decide)⟩
  · have haligned (month : Int) (h : month ∈ [1, 3]) : (monthOf2024 month).Aligned .month .month := by
      refine ⟨rfl, ?_⟩
      revert month
      decide
    obtain ⟨is, his, hsegments, hsorted, hmem⟩ :=
      hcut [monthOf2024 3, monthOf2024 1, monthOf2024 3] (by
        simp only [List.forall_mem_cons]
        exact ⟨haligned 3 (by simp), haligned 1 (by simp), haligned 3 (by simp),
          List.forall_mem_nil _⟩)
    have hsame (s : Segment) : s ∈ [monthOf2024 3, monthOf2024 1, monthOf2024 3] ↔
        s ∈ [monthOf2024 1, monthOf2024 3] := by
      simp only [List.mem_cons, List.not_mem_nil, or_false]
      tauto
    refine ⟨is, his, ?_⟩
    rw [hsegments, eq_of_mem_iff hsorted (by decide) fun s => (hmem s).trans (hsame s)]

end Segment

end TenantQuery
