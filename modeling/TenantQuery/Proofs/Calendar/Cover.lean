import TenantQuery.Proofs.Calendar.Segment

namespace TenantQuery

open Calendar Outcome

namespace Interval

def Holds (i : Interval) (t : Instant) : Prop :=
  i.start ≤ t ∧ t < i.stop

/-- Intervals in order, with time between them. -/
structure Apart (is : List Interval) : Prop where
  filled : ∀ i ∈ is, i.start < i.stop
  gaps : is.Pairwise fun i j => i.stop < j.start

section

variable {is js : List Interval}

theorem Apart.not_holds_stop (h : Apart is) : ∀ i ∈ is, ∀ j ∈ is, ¬ j.Holds i.stop := by
  refine List.Pairwise.forall_of_forall_of_flip (R := fun i j : Interval => ¬ j.Holds i.stop) ?_ ?_ ?_
  · intro i _ hi
    exact Int.lt_irrefl _ hi.2
  · refine h.gaps.imp fun {i j} hgap hj => ?_
    exact Int.lt_irrefl _ (Int.lt_of_lt_of_le hgap hj.1)
  · refine h.gaps.imp_of_mem fun {i j} _ hj hgap hi => ?_
    exact Int.lt_irrefl _ (Int.lt_trans (Int.lt_trans hgap (h.filled j hj)) hi.2)

theorem Apart.length_le (h : Apart is)
    (hsame : ∀ t, (∃ j ∈ js, j.Holds t) ↔ ∃ i ∈ is, i.Holds t) : is.length ≤ js.length := by
  have hexists : ∀ i, ∃ j, i ∈ is → j ∈ js ∧ j.Holds i.start := by
    intro i
    by_cases hi : i ∈ is
    · obtain ⟨j, hj⟩ := (hsame i.start).2 ⟨i, hi, Int.le_refl _, h.filled i hi⟩
      exact ⟨j, fun _ => hj⟩
    · exact ⟨i, fun hmem => absurd hmem hi⟩
  choose f hf using hexists
  -- One interval cannot hold the beginnings of two: it would hold the end of the first of them.
  have hdistinct : (is.map f).Nodup := by
    refine List.pairwise_map.2 (h.gaps.imp_of_mem fun {i i'} hi hi' hgap heq => ?_)
    have hstop : (f i).Holds i.stop := by
      refine ⟨Int.le_trans (hf i hi).2.1 (Int.le_of_lt (h.filled i hi)), ?_⟩
      rw [heq]
      exact Int.lt_trans hgap (hf i' hi').2.2
    obtain ⟨k, hk, hholds⟩ := (hsame i.stop).1 ⟨f i, (hf i hi).1, hstop⟩
    exact h.not_holds_stop i hi k hk hholds
  have hsubset : is.map f ⊆ js := by
    intro j hj
    obtain ⟨i, hi, rfl⟩ := List.mem_map.1 hj
    exact (hf i hi).1
  have hlength := (List.subperm_of_subset hdistinct hsubset).length_le
  rwa [List.length_map] at hlength

end

end Interval

theorem runsFrom_apart {a b : Int} {ks : List Int} (hks : (a :: ks).Pairwise (· ≤ ·))
    (hab : a < b) :
    (∀ r ∈ runsFrom a b ks, a ≤ r.1 ∧ r.1 < r.2) ∧
      (runsFrom a b ks).Pairwise fun r r' => r.2 < r'.1 := by
  induction ks generalizing a b with
  | nil => simp [runsFrom, hab]
  | cons k ks ih =>
      obtain ⟨ha, hks⟩ := List.pairwise_cons.1 hks
      have hak := ha k List.mem_cons_self
      rw [runsFrom]
      split
      · rename_i hgap
        obtain ⟨hbounds, hpairwise⟩ := ih hks (Int.lt_succ k)
        refine ⟨List.forall_mem_cons.2 ⟨⟨Int.le_refl a, hab⟩, fun r hr => ?_⟩,
          List.pairwise_cons.2 ⟨fun r hr => ?_, hpairwise⟩⟩
        · exact ⟨Int.le_trans hak (hbounds r hr).1, (hbounds r hr).2⟩
        · exact Int.lt_of_lt_of_le hgap (hbounds r hr).1
      · refine ih ?_ (by omega)
        exact List.pairwise_cons.2 ⟨fun j hj => ha j (List.mem_cons_of_mem k hj),
          (List.pairwise_cons.1 hks).2⟩

theorem runs_apart {ks : List Int} (hks : ks.Pairwise (· ≤ ·)) :
    (∀ r ∈ runs ks, r.1 < r.2) ∧ (runs ks).Pairwise fun r r' => r.2 < r'.1 := by
  cases ks with
  | nil => simp [runs]
  | cons k ks =>
      obtain ⟨hbounds, hpairwise⟩ := runsFrom_apart hks (Int.lt_succ k)
      exact ⟨fun r hr => (hbounds r hr).2, hpairwise⟩

namespace Granularity

variable {g : Granularity}

theorem exists_component (h : g ∈ [.hour, .day, .month, .year]) : ∃ c, g.component? = some c := by
  simp only [List.mem_cons, List.not_mem_nil, or_false] at h
  rcases h with rfl | rfl | rfl | rfl <;> exact ⟨_, rfl⟩

theorem component_eq_none (h : g ∉ [.hour, .day, .month, .year]) : g.component? = Option.none := by
  cases g <;> simp_all [component?]

end Granularity

namespace Component

variable {c : Component}

theorem holds_span {r : Int × Int} {t : Instant} :
    (c.span r).Holds t ↔ r.1 ≤ c.number t ∧ c.number t < r.2 :=
  and_congr startOf_le_iff lt_startOf_iff

theorem apart_spans {rs : List (Int × Int)} (hfilled : ∀ r ∈ rs, r.1 < r.2)
    (hgaps : rs.Pairwise fun r r' => r.2 < r'.1) : Interval.Apart (rs.map c.span) := by
  refine ⟨fun i hi => ?_, List.pairwise_map.2 (hgaps.imp startOf_lt_startOf.2)⟩
  obtain ⟨r, hr, rfl⟩ := List.mem_map.1 hi
  exact startOf_lt_startOf.2 (hfilled r hr)

end Component

namespace Segment

def Holds (s : Segment) (t : Instant) : Prop :=
  ∃ stop, s.stop = .ok stop ∧ s.start ≤ t ∧ t < stop

section

variable {g : Granularity} {c : Component}

theorem stop_eq (hg : g.component? = some c) {s : Segment} (hs : s.granularity = g) :
    s.stop = .ok (s.start.add c 1) := by
  rw [stop, hs, hg]

theorem holds_iff (hg : g.component? = some c) {s : Segment} (hs : s.granularity = g)
    {t : Instant} : s.Holds t ↔ s.start ≤ t ∧ t < s.start.add c 1 := by
  simp only [Holds, stop_eq hg hs, Except.ok.injEq, exists_eq_left']

theorem holds_ofUnit (hg : g.component? = some c) {k : Int} {t : Instant} :
    (ofUnit g c k).Holds t ↔ c.number t = k := by
  have hc := Granularity.component_ne_unset hg
  rw [holds_iff hg rfl, ofUnit, Component.add_startOf (Component.shifts_one hc),
    Component.startOf_le_iff, Component.lt_startOf_iff]
  omega

theorem holds_merged (hg : g.component? = some c) {l : List Segment} {ks : List Int}
    (hks : normalize l = ks.map (ofUnit g c)) (hsorted : ks.Pairwise (· < ·)) (t : Instant) :
    (∃ i ∈ (runs ks).map c.span, i.Holds t) ↔ ∃ s ∈ l, s.Holds t := by
  have hmem (s : Segment) : s ∈ l ↔ ∃ k ∈ ks, ofUnit g c k = s := by
    rw [← mem_normalize, hks, List.mem_map]
  simp only [List.mem_map, exists_exists_and_eq_and, Component.holds_span,
    mem_runs (hsorted.imp Int.le_of_lt), hmem, holds_ofUnit hg, exists_eq_right']

theorem mergeFrom_mixed {current : Interval} {l : List Segment}
    (h : ∃ s ∈ l, s.granularity ≠ g) :
    ∃ e, mergeFrom g c current l = .error e ∧ e.code = .notImplemented := by
  induction l generalizing current with
  | nil => simp at h
  | cons s rest ih =>
      rw [mergeFrom]
      by_cases hs : s.granularity = g
      · have hrest : ∃ s ∈ rest, s.granularity ≠ g := by
          obtain ⟨t, ht, hne⟩ := h
          rcases List.mem_cons.1 ht with rfl | ht
          · exact absurd hs hne
          · exact ⟨t, ht, hne⟩
        rw [if_neg (not_not.2 hs)]
        dsimp only
        split
        · obtain ⟨e, he, hcode⟩ := @ih ⟨s.start, s.start⟩ hrest
          exact ⟨e, by rw [he, error_bind], hcode⟩
        · exact ih hrest
      · exact ⟨_, if_pos hs, rfl⟩

end

theorem merge_refused {l : List Segment}
    (h : (∃ s ∈ l, s.granularity.component? = none) ∨
      ∃ s ∈ l, ∃ s' ∈ l, s.granularity ≠ s'.granularity) :
    ∃ e, merge l = .error e ∧ e.code = .notImplemented := by
  have hne : normalize l ≠ [] := by
    obtain ⟨s, hs, -⟩ | ⟨s, hs, -⟩ := h <;>
      exact List.ne_nil_of_mem (mem_normalize.2 hs)
  rw [merge]
  cases hnormal : normalize l with
  | nil => exact absurd hnormal hne
  | cons first rest =>
      dsimp only
      cases hfirst : first.granularity.component? with
      | none => exact ⟨_, rfl, rfl⟩
      | some c =>
          refine mergeFrom_mixed ?_
          rw [← hnormal]
          simp only [mem_normalize]
          obtain ⟨s, hs, hnone⟩ | ⟨s, hs, s', hs', hdiffer⟩ := h
          · refine ⟨s, hs, fun heq => ?_⟩
            rw [heq, hfirst] at hnone
            cases hnone
          · by_cases heq : s.granularity = first.granularity
            · exact ⟨s', hs', fun heq' => hdiffer (heq.trans heq'.symm)⟩
            · exact ⟨s, hs, heq⟩

theorem merge_eq_of_mem_iff {l l' : List Segment} (hordered : Ordered l)
    (hmem : ∀ s, s ∈ l' ↔ s ∈ l) : merge l' = merge l := by
  rw [merge, merge, normalize_eq_of_mem_iff hordered fun s => (hmem s).symm]

/-- Whole units of one granularity, listed in any order and any number of times, are merged into
intervals that lie apart from each other and hold the instants of the units; no shorter list of
intervals holds the same. Units of several granularities, or of one that time cannot be cut into, are
refused, in the same way in whatever order they come. -/
theorem merge_least_cover :
    (∀ g ∈ [Granularity.hour, .day, .month, .year], ∃ c, g.component? = some c ∧
      ∀ l : List Segment, (∀ s ∈ l, s.Aligned g c) → ∃ is : List Interval,
        (∀ l', (∀ s, s ∈ l' ↔ s ∈ l) → merge l' = .ok is) ∧ Interval.Apart is ∧
        (∀ t, (∃ i ∈ is, i.Holds t) ↔ ∃ s ∈ l, s.Holds t) ∧
        ∀ js : List Interval, (∀ t, (∃ j ∈ js, j.Holds t) ↔ ∃ s ∈ l, s.Holds t) →
          is.length ≤ js.length) ∧
    ∀ l : List Segment, (∃ s ∈ l, s.granularity ∉ [.hour, .day, .month, .year]) ∨
        (∃ s ∈ l, ∃ s' ∈ l, s.granularity ≠ s'.granularity) →
      ∃ e, merge l = .error e ∧ e.code = .notImplemented ∧
        ((∀ s ∈ l, Granularity.ofName s.granularity.name = s.granularity) →
          ∀ l', (∀ s, s ∈ l' ↔ s ∈ l) → merge l' = .error e) := by
  constructor
  · intro g hmem
    obtain ⟨c, hg⟩ := Granularity.exists_component hmem
    refine ⟨c, hg, fun l hl => ?_⟩
    obtain ⟨ks, hks, hsorted⟩ := exists_units hl
    obtain ⟨hfilled, hgaps⟩ := runs_apart (hsorted.imp Int.le_of_lt)
    have hapart := Component.apart_spans (c := c) hfilled hgaps
    have hholds := holds_merged hg hks hsorted
    refine ⟨(runs ks).map c.span, fun l' hl' => ?_, hapart, hholds, fun js hjs => ?_⟩
    · rw [merge_eq_of_mem_iff (ordered_of_granularity fun s hs => (hl s hs).granularity) hl',
        merge_eq hg hks]
    · exact hapart.length_le fun t => (hjs t).trans (hholds t).symm
  · intro l h
    obtain ⟨e, he, hcode⟩ := merge_refused (l := l) (h.imp_left fun ⟨s, hs, hnot⟩ =>
      ⟨s, hs, Granularity.component_eq_none hnot⟩)
    refine ⟨e, he, hcode, fun hname l' hl' => ?_⟩
    rw [merge_eq_of_mem_iff (ordered_of_name hname) hl', he]

/-- Months with a gap before the last, one of them twice; a week fits in nowhere. -/
def springOf2024 : List Segment :=
  [monthOf2024 5, monthOf2024 3, monthOf2024 2, monthOf2024 3]

theorem merge_least_cover_spring :
    (∀ s ∈ springOf2024, s.Aligned .month .month) ∧
    (∃ is, merge springOf2024 = .ok is ∧ merge springOf2024.reverse = .ok is ∧ Interval.Apart is ∧
      (∃ i ∈ is, i.Holds (.ofFields 2024 2 29 12 0 0 0)) ∧
      ¬ ∃ i ∈ is, i.Holds (.ofFields 2024 4 1 0 0 0 0)) ∧
    ∃ e, merge (⟨.ofFields 2024 2 5 0 0 0 0, .week⟩ :: springOf2024) = .error e ∧
      merge (springOf2024 ++ [⟨.ofFields 2024 2 5 0 0 0 0, .week⟩]) = .error e ∧
      e.code = .notImplemented := by
  have haligned : ∀ s ∈ springOf2024, s.Aligned .month .month := by
    simp only [springOf2024, List.forall_mem_cons]
    exact ⟨⟨rfl, by decide⟩, ⟨rfl, by decide⟩, ⟨rfl, by decide⟩, ⟨rfl, by decide⟩,
      List.forall_mem_nil _⟩
  obtain ⟨hcover, hrefused⟩ := merge_least_cover
  refine ⟨haligned, ?_, ?_⟩
  · obtain ⟨c, hc, hmonths⟩ := hcover .month (by simp)
    obtain rfl : Component.month = c := Option.some.inj hc
    obtain ⟨is, hmerge, hapart, hholds, -⟩ := hmonths springOf2024 haligned
    refine ⟨is, hmerge _ fun s => Iff.rfl, hmerge _ fun s => List.mem_reverse, hapart, ?_, ?_⟩
    · rw [hholds]
      exact ⟨monthOf2024 2, by simp [springOf2024], _, rfl, by decide, by decide⟩
    · rw [hholds]
      rintro ⟨s, hs, stop, hstop, hstart, hlt⟩
      simp only [springOf2024, List.mem_cons, List.not_mem_nil, or_false] at hs
      rcases hs with rfl | rfl | rfl | rfl <;> cases hstop <;> revert hstart hlt <;> decide
  · obtain ⟨e, he, hcode, hsame⟩ :=
      hrefused (⟨.ofFields 2024 2 5 0 0 0 0, .week⟩ :: springOf2024) (.inl ⟨_, .head _, by decide⟩)
    refine ⟨e, he, hsame ?_ _ fun s => ?_, hcode⟩
    · simp only [springOf2024, List.forall_mem_cons]
      exact ⟨by decide, by decide, by decide, by decide, by decide, List.forall_mem_nil _⟩
    · rw [List.mem_append, List.mem_singleton, List.mem_cons, or_comm]

end Segment

end TenantQuery
