import TenantQuery.Proofs.Calendar.Cover

namespace TenantQuery

open Calendar Outcome

namespace Instant

variable {a b : Instant}

theorem lt_iff_of_month (hyear : a.date.year = b.date.year) (hmonth : a.date.month = b.date.month) :
    a < b ↔ a.date.day < b.date.day ∨ a.date.day = b.date.day ∧ a.timeOfDay < b.timeOfDay := by
  have ha : dayNumber a.date.year a.date.month a.date.day = a.day := (dateOf_spec a.day).2
  have hb : dayNumber b.date.year b.date.month b.date.day = b.day := (dateOf_spec b.day).2
  have hdays : a.day - b.day = a.date.day - b.date.day := by
    rw [← ha, ← hb, hyear, hmonth]
    unfold dayNumber
    omega
  have hnanos : a < b ↔ a.day < b.day ∨ a.day = b.day ∧ a.timeOfDay < b.timeOfDay := by
    simp only [lt_iff, day, timeOfDay, nanosPerDay, nanosPerSecond]
    omega
  rw [hnanos]
  omega

theorem monthNumber_eq_iff :
    a.monthNumber = b.monthNumber ↔ a.date.year = b.date.year ∧ a.date.month = b.date.month := by
  have := a.date_valid.month_pos
  have := a.date_valid.month_le
  have := b.date_valid.month_pos
  have := b.date_valid.month_le
  unfold monthNumber
  omega

/-- Instants of one month, on days that are both cut down to the last one of the month reached, the
first of them later in its day. -/
structure Crosses (n : Int) (a b : Instant) : Prop where
  year : a.date.year = b.date.year
  month : a.date.month = b.date.month
  day : a.date.day < b.date.day
  cut : daysInMonth (a.addMonths n).date.year (a.addMonths n).date.month ≤ a.date.day
  time : b.timeOfDay < a.timeOfDay

theorem Crosses.lt {n : Int} (h : Crosses n a b) : a < b :=
  (lt_iff_of_month h.year h.month).2 (.inl h.day)

theorem addMonths_lt_addMonths_iff (hab : a ≤ b) (n : Int) :
    b.addMonths n < a.addMonths n ↔ Crosses n a b := by
  obtain ⟨hyear, hmonth, hday⟩ := date_addMonths a n
  obtain ⟨hyear', hmonth', hday'⟩ := date_addMonths b n
  -- Once both are in one month, what they are shifted to is compared by the days cut down.
  have hwithin (hy : a.date.year = b.date.year) (hm : a.date.month = b.date.month) :
      b.addMonths n < a.addMonths n ↔ a.date.day < b.date.day ∧
        daysInMonth (a.addMonths n).date.year (a.addMonths n).date.month ≤ a.date.day ∧
        b.timeOfDay < a.timeOfDay := by
    rw [hy, hm, ← hyear'] at hyear
    rw [hm, ← hmonth'] at hmonth
    have hordered : ¬ b < a := Int.not_lt.2 hab
    rw [lt_iff_of_month hy.symm hm.symm] at hordered
    rw [lt_iff_of_month hyear.symm hmonth.symm, timeOfDay_addMonths, timeOfDay_addMonths, hday,
      hday', ← hyear, ← hmonth]
    omega
  constructor
  · intro h
    have hsame : a.monthNumber = b.monthNumber := by
      have hbefore : a.monthNumber ≤ b.monthNumber := Component.number_mono (c := .month) hab
      have hafter : (b.addMonths n).monthNumber ≤ (a.addMonths n).monthNumber :=
        Component.number_mono (c := .month) (Int.le_of_lt h)
      rw [monthNumber_addMonths, monthNumber_addMonths] at hafter
      omega
    obtain ⟨hy, hm⟩ := monthNumber_eq_iff.1 hsame
    obtain ⟨hlt, hcut, htime⟩ := (hwithin hy hm).1 h
    exact ⟨hy, hm, hlt, hcut, htime⟩
  · intro h
    exact (hwithin h.year h.month).2 ⟨h.day, h.cut, h.time⟩

theorem add_lt_add_iff {g : Granularity} {c : Component} (hg : g.component? = some c) (hab : a ≤ b) :
    b.add c 1 < a.add c 1 ↔
      (g = .month ∧ Crosses 1 a b) ∨ (g = .year ∧ Crosses 12 a b) := by
  cases g <;> cases hg
  all_goals simp only [add, reduceCtorEq, false_and, true_and, or_false, false_or, iff_false]
  case hour => exact Int.not_lt.2 (Int.add_le_add_right hab _)
  case day => exact Int.not_lt.2 (Int.add_le_add_right hab _)
  case month => exact addMonths_lt_addMonths_iff hab 1
  case year => exact addMonths_lt_addMonths_iff hab 12

end Instant

namespace Component

variable {c : Component} {a b s : Instant} {ts : List Instant}

theorem lt_add_one (hc : c ≠ .unset) (t : Instant) : t < t.add c 1 := by
  have hnext : c.startOf (c.number t + 1) ≤ t.add c 1 := by
    rw [startOf_le_iff, number_add (shifts_one hc)]
  exact Int.lt_of_lt_of_le (lt_startOf_iff.2 (Int.lt_succ _)) hnext

def joinFrom (c : Component) (a b : Instant) : List Instant → List Interval
  | [] => [⟨a, b.add c 1⟩]
  | t :: ts =>
    if b.add c 1 < t then ⟨a, b.add c 1⟩ :: joinFrom c t t ts else joinFrom c a t ts

theorem le_start_joinFrom (hsorted : (a :: ts).Pairwise (· ≤ ·)) :
    ∀ i ∈ c.joinFrom a b ts, a ≤ i.start := by
  induction ts generalizing a b with
  | nil =>
      rw [joinFrom, List.forall_mem_singleton]
      exact Int.le_refl _
  | cons t ts ih =>
      obtain ⟨ha, hts⟩ := List.pairwise_cons.1 hsorted
      rw [joinFrom]
      split
      · refine List.forall_mem_cons.2 ⟨Int.le_refl _, fun i hi => ?_⟩
        exact Int.le_trans (ha t List.mem_cons_self) (ih hts i hi)
      · exact ih (hsorted.sublist (.cons_cons a (List.sublist_cons_self t ts)))

def EndsWithin (c : Component) (ts : List Instant) (s : Instant) : Prop :=
  ∀ t ∈ ts, s ≤ t → (∀ u ∈ ts, t < u → t.add c 1 < u) → s.add c 1 ≤ t.add c 1

theorem endsWithin_cons (hb : ∀ u ∈ ts, b < u) :
    c.EndsWithin (b :: ts) s ↔
      (s ≤ b → (∀ u ∈ ts, b.add c 1 < u) → s.add c 1 ≤ b.add c 1) ∧ c.EndsWithin ts s := by
  -- What begins first follows nothing, and all others begin after it.
  have hfirst : (∀ u ∈ b :: ts, b < u → b.add c 1 < u) ↔ ∀ u ∈ ts, b.add c 1 < u := by
    have hself : ¬ b < b := Int.lt_irrefl _
    rw [List.forall_mem_cons, and_iff_right fun h => absurd h hself]
    exact forall₂_congr fun u hu => forall_prop_of_true (hb u hu)
  have hlater : ∀ t ∈ ts, ((∀ u ∈ b :: ts, t < u → t.add c 1 < u) ↔
      ∀ u ∈ ts, t < u → t.add c 1 < u) := by
    intro t ht
    have hafter : ¬ t < b := Int.lt_asymm (hb t ht)
    rw [List.forall_mem_cons, and_iff_right fun h => absurd h hafter]
  rw [EndsWithin, List.forall_mem_cons, hfirst]
  exact and_congr_right fun _ => forall₂_congr fun t ht => by rw [hlater t ht]

theorem endsWithin_of_gap (hc : c ≠ .unset) (hgap : ∀ u ∈ ts, b.add c 1 < u)
    (hle : s.add c 1 ≤ b.add c 1) : c.EndsWithin ts s := by
  intro t ht _ _
  have hlater : b.add c 1 < t.add c 1 := Int.lt_trans (hgap t ht) (lt_add_one hc t)
  exact Int.le_trans hle (Int.le_of_lt hlater)

theorem covers_joinFrom (hc : c ≠ .unset) (hsorted : (b :: ts).Pairwise (· < ·)) (hab : a ≤ b)
    (has : a ≤ s) (hs : s ≤ b ∨ s ∈ ts) :
    (∃ i ∈ c.joinFrom a b ts, i.start ≤ s ∧ s.add c 1 ≤ i.stop) ↔ c.EndsWithin (b :: ts) s := by
  induction ts generalizing a b with
  | nil =>
      have hsb : s ≤ b := hs.resolve_right List.not_mem_nil
      rw [endsWithin_cons (List.forall_mem_nil _)]
      simp [joinFrom, EndsWithin, has, hsb]
  | cons t ts ih =>
      obtain ⟨hb, hts⟩ := List.pairwise_cons.1 hsorted
      have hbt : b ≤ t := Int.le_of_lt (hb t (.head _))
      have hnext : s ∈ t :: ts → s ≤ t ∨ s ∈ ts := by
        rw [List.mem_cons]
        rintro (rfl | hmem)
        · exact .inl (Int.le_refl _)
        · exact .inr hmem
      rw [endsWithin_cons hb, joinFrom]
      split
      · rename_i hgap
        have hahead : ∀ u ∈ t :: ts, t ≤ u ∧ b.add c 1 < u := by
          rw [List.forall_mem_cons]
          refine ⟨⟨Int.le_refl _, hgap⟩, fun u hu => ?_⟩
          have htu := (List.pairwise_cons.1 hts).1 u hu
          exact ⟨Int.le_of_lt htu, Int.lt_trans hgap htu⟩
        simp only [List.mem_cons (l := c.joinFrom t t ts), exists_eq_or_imp]
        by_cases hsb : s ≤ b
        · -- The unit is one of the interval that ends here, and the later ones begin after it.
          have hlater : ¬ ∃ i ∈ c.joinFrom t t ts, i.start ≤ s ∧ s.add c 1 ≤ i.stop := by
            rintro ⟨i, hi, hstart, -⟩
            have hti := le_start_joinFrom (hts.imp Int.le_of_lt) i hi
            have hts : t ≤ b := Int.le_trans (Int.le_trans hti hstart) hsb
            exact Int.not_lt.2 hts (hb t (.head _))
          rw [or_iff_left hlater]
          constructor
          · rintro ⟨-, hle⟩
            exact ⟨fun _ _ => hle, endsWithin_of_gap hc (fun u hu => (hahead u hu).2) hle⟩
          · rintro ⟨hle, -⟩
            exact ⟨has, hle hsb fun u hu => (hahead u hu).2⟩
        · have hmem := hs.resolve_left hsb
          have hpast : ¬ (a ≤ s ∧ s.add c 1 ≤ b.add c 1) := fun h =>
            Int.not_lt.2 h.2 (Int.lt_trans (hahead s hmem).2 (lt_add_one hc s))
          rw [or_iff_right hpast, and_iff_right fun h => absurd h hsb]
          exact ih hts (Int.le_refl _) (hahead s hmem).1 (hnext hmem)
      · rename_i hgap
        rw [and_iff_right fun _ h => absurd (h t (.head _)) hgap]
        refine ih hts (Int.le_trans hab hbt) has ?_
        exact hs.elim (fun hsb => .inl (Int.le_trans hsb hbt)) hnext

def join (c : Component) : List Instant → List Interval
  | [] => []
  | t :: ts => c.joinFrom t t ts

theorem covers_join (hc : c ≠ .unset) (hsorted : ts.Pairwise (· < ·)) (hs : s ∈ ts) :
    (∃ i ∈ c.join ts, i.start ≤ s ∧ s.add c 1 ≤ i.stop) ↔ c.EndsWithin ts s := by
  cases ts with
  | nil => exact absurd hs List.not_mem_nil
  | cons t ts =>
      rcases List.mem_cons.1 hs with rfl | hmem
      · exact covers_joinFrom hc hsorted (Int.le_refl _) (Int.le_refl _) (.inl (Int.le_refl _))
      · have hts := (List.pairwise_cons.1 hsorted).1 s hmem
        exact covers_joinFrom hc hsorted (Int.le_refl _) (Int.le_of_lt hts) (.inr hmem)

end Component

namespace Segment

variable {g : Granularity} {c : Component}

/-- The segment begins no later than the other and ends after it. -/
def Outlasts (s t : Segment) : Prop :=
  s.start ≤ t.start ∧ ∃ stop, t.stop = .ok stop ∧ s.Holds stop

/-- The segment begins after the other, but not after its end. -/
def Follows (s t : Segment) : Prop :=
  t.start < s.start ∧ ∃ stop, t.stop = .ok stop ∧ s.start ≤ stop

theorem mergeFrom_eq_joinFrom {a b : Instant} {l : List Segment}
    (hl : ∀ s ∈ l, s.granularity = g) (hsorted : (b :: l.map start).Pairwise (· < ·)) :
    mergeFrom g c ⟨a, b⟩ l = .ok (c.joinFrom a b (l.map start)) := by
  induction l generalizing a b with
  | nil => rfl
  | cons s rest ih =>
      obtain ⟨hs, hrest⟩ := List.forall_mem_cons.1 hl
      obtain ⟨hb, hsorted⟩ := List.pairwise_cons.1 hsorted
      have hbs : b < s.start := hb _ (.head _)
      simp only [mergeFrom, hs, ne_eq, not_true, if_false, List.map_cons, Component.joinFrom, hbs,
        if_true, ih hrest hsorted, ok_bind]
      split <;> rfl

theorem merge_eq_join (hg : g.component? = some c) {l : List Segment}
    (hl : ∀ s ∈ l, s.granularity = g) : merge l = .ok (c.join ((normalize l).map start)) := by
  have hnormal : ∀ s ∈ normalize l, s.granularity = g := fun s hs => hl s (mem_normalize.1 hs)
  have hsorted := List.pairwise_map.2 (pairwise_normalize hl)
  rw [merge]
  cases h : normalize l with
  | nil => rfl
  | cons first rest =>
      rw [h] at hnormal hsorted
      obtain ⟨rfl, hrest⟩ := List.forall_mem_cons.1 hnormal
      -- The first segment is looked at once more, and then is neither past the gap nor a new end.
      have hgap : ¬ first.start.add c 1 < first.start :=
        Int.lt_asymm (Component.lt_add_one (Granularity.component_ne_unset hg) first.start)
      simp only [hg, mergeFrom, ne_eq, not_true, if_false, hgap, ite_self]
      exact mergeFrom_eq_joinFrom hrest hsorted

theorem outlasts_iff (hg : g.component? = some c) {s t : Segment} (hs : s.granularity = g)
    (ht : t.granularity = g) :
    s.Outlasts t ↔ s.start ≤ t.start ∧ t.start.add c 1 < s.start.add c 1 := by
  refine and_congr_right fun hle => ?_
  have hlt := Component.lt_add_one (Granularity.component_ne_unset hg) t.start
  simp only [stop_eq hg ht, Except.ok.injEq, exists_eq_left', holds_iff hg hs]
  exact and_iff_right (Int.le_trans hle (Int.le_of_lt hlt))

theorem follows_iff (hg : g.component? = some c) {s t : Segment} (ht : t.granularity = g) :
    s.Follows t ↔ t.start < s.start ∧ s.start ≤ t.start.add c 1 := by
  simp only [Follows, stop_eq hg ht, Except.ok.injEq, exists_eq_left']

theorem covered_iff (hg : g.component? = some c) {s : Segment} (hs : s.granularity = g)
    {i : Interval} :
    (∀ t, s.Holds t → i.Holds t) ↔ i.start ≤ s.start ∧ s.start.add c 1 ≤ i.stop := by
  have hlt := Component.lt_add_one (Granularity.component_ne_unset hg) s.start
  simp only [holds_iff hg hs]
  constructor
  · intro h
    have hfirst := h s.start ⟨Int.le_refl _, hlt⟩
    have hlast := h ⟨(s.start.add c 1).nanos - 1⟩ ⟨Int.le_sub_one_of_lt hlt,
      Int.sub_one_lt_of_le (Int.le_refl _)⟩
    exact ⟨hfirst.1, Int.le_of_sub_one_lt hlast.2⟩
  · rintro ⟨hstart, hstop⟩ t ⟨hle, hlt⟩
    exact ⟨Int.le_trans hstart hle, Int.lt_of_lt_of_le hlt hstop⟩

theorem outlasts_iff_crosses (hg : g.component? = some c) {s t : Segment}
    (hs : s.granularity = g) (ht : t.granularity = g) :
    s.Outlasts t ↔ (g = .month ∧ Instant.Crosses 1 s.start t.start) ∨
      (g = .year ∧ Instant.Crosses 12 s.start t.start) := by
  rw [outlasts_iff hg hs ht]
  constructor
  · rintro ⟨hle, hlt⟩
    exact (Instant.add_lt_add_iff hg hle).1 hlt
  · intro h
    have hle : s.start ≤ t.start := by
      rcases h with ⟨-, h⟩ | ⟨-, h⟩ <;> exact Int.le_of_lt h.lt
    exact ⟨hle, (Instant.add_lt_add_iff hg hle).2 h⟩

theorem endsWithin_iff (hg : g.component? = some c) {l : List Segment}
    (hl : ∀ s ∈ l, s.granularity = g) {s : Segment} (hs : s ∈ l) :
    c.EndsWithin ((normalize l).map start) s.start ↔
      ∀ t ∈ l, s.Outlasts t → ∃ u ∈ l, u.Follows t := by
  simp only [Component.EndsWithin, List.forall_mem_map, mem_normalize]
  refine forall₂_congr fun t ht => ?_
  rw [outlasts_iff hg (hl s hs) (hl t ht)]
  simp only [follows_iff hg (hl t ht), and_imp]
  refine forall_congr' fun _ => ⟨fun h hlt => ?_, fun h hgap => ?_⟩
  · by_contra hnone
    refine Int.not_lt.2 (h fun u hu htu => ?_) hlt
    exact Int.not_le.1 fun hle => hnone ⟨u, hu, htu, hle⟩
  · refine Int.not_lt.1 fun hlt => ?_
    obtain ⟨u, hu, htu, hle⟩ := h hlt
    exact Int.not_lt.2 hle (hgap u hu htu)

/-- Segments of one granularity that begin anywhere are merged, and an interval holds all of a
segment exactly if each segment that it outlasts is followed by another. Only months and years outlast
each other, and only those whose beginnings cross. -/
theorem merge_covers_iff (g : Granularity) (hg : g ∈ [.hour, .day, .month, .year])
    (l : List Segment) (hl : ∀ s ∈ l, s.granularity = g) :
    ∃ is, merge l = .ok is ∧ ∀ s ∈ l,
      ((∃ i ∈ is, ∀ t, s.Holds t → i.Holds t) ↔ ∀ t ∈ l, s.Outlasts t → ∃ u ∈ l, u.Follows t) ∧
      ∀ t ∈ l, s.Outlasts t ↔ (g = .month ∧ Instant.Crosses 1 s.start t.start) ∨
        (g = .year ∧ Instant.Crosses 12 s.start t.start) := by
  obtain ⟨c, hc⟩ := Granularity.exists_component hg
  have hsorted : ((normalize l).map start).Pairwise (· < ·) :=
    List.pairwise_map.2 (pairwise_normalize hl)
  refine ⟨_, merge_eq_join hc hl, fun s hs => ⟨?_, fun t ht => ?_⟩⟩
  · simp only [covered_iff hc (hl s hs)]
    rw [Component.covers_join (Granularity.component_ne_unset hc) hsorted
      (List.mem_map_of_mem (mem_normalize.2 hs)), endsWithin_iff hc hl hs]
  · exact outlasts_iff_crosses hc (hl s hs) (hl t ht)

def monthFrom2023 (month day hour : Int) : Segment :=
  ⟨.ofFields 2023 month day hour 0 0 0, .month⟩

theorem merge_covers_iff_february :
    Granularity.month ∈ [.hour, .day, .month, .year] ∧
    (∀ s ∈ [monthFrom2023 1 30 12, monthFrom2023 1 31 0, monthFrom2023 2 10 0],
      s.granularity = .month) ∧
    (monthFrom2023 1 30 12).Outlasts (monthFrom2023 1 31 0) ∧
    ∃ is, merge [monthFrom2023 1 30 12, monthFrom2023 1 31 0, monthFrom2023 2 10 0] = .ok is ∧
      ∃ i ∈ is, ∀ t, (monthFrom2023 1 30 12).Holds t → i.Holds t := by
  have hmonth : Granularity.month ∈ [.hour, .day, .month, .year] := by simp
  have hl : ∀ s ∈ [monthFrom2023 1 30 12, monthFrom2023 1 31 0, monthFrom2023 2 10 0],
      s.granularity = .month := by decide
  obtain ⟨is, his, hcovers⟩ := merge_covers_iff .month hmonth _ hl
  obtain ⟨hcovered, houtlasts⟩ := hcovers (monthFrom2023 1 30 12) (by simp)
  refine ⟨hmonth, hl, ?_, is, his, ?_⟩
  · rw [houtlasts (monthFrom2023 1 31 0) (by simp)]
    exact .inl ⟨rfl, by decide, by decide, by decide, by decide, by decide⟩
  · rw [hcovered]
    intro t ht h
    rw [houtlasts t ht] at h
    obtain ⟨-, hcrosses⟩ := h.resolve_right (by simp)
    simp only [List.mem_cons, List.not_mem_nil, or_false] at ht
    rcases ht with rfl | rfl | rfl
    · exact absurd hcrosses.day (by decide)
    · exact ⟨monthFrom2023 2 10 0, by simp, by decide, _, rfl, by decide⟩
    · exact absurd hcrosses.month (by decide)

theorem merge_january_uncovered :
    read (.object [("beginningDate", .string "2023-01-30T12:00:00Z"),
      ("duration", .string "month")]) = .ok (monthFrom2023 1 30 12) ∧
    read (.object [("beginningDate", .string "2023-01-31T00:00:00Z"),
      ("duration", .string "month")]) = .ok (monthFrom2023 1 31 0) ∧
    merge [monthFrom2023 1 30 12, monthFrom2023 1 31 0] =
      .ok [⟨.ofFields 2023 1 30 12 0 0 0, .ofFields 2023 2 28 0 0 0 0⟩] ∧
    (monthFrom2023 1 30 12).stop = .ok (.ofFields 2023 2 28 12 0 0 0) ∧
    ¬ ∀ t, (monthFrom2023 1 30 12).Holds t →
      Interval.Holds ⟨.ofFields 2023 1 30 12 0 0 0, .ofFields 2023 2 28 0 0 0 0⟩ t := by
  have hl : ∀ s ∈ [monthFrom2023 1 30 12, monthFrom2023 1 31 0], s.granularity = .month := by
    decide
  have hmerge := merge_eq_join rfl hl
  rw [normalize_eq_self hl (by decide)] at hmerge
  refine ⟨rfl, rfl, hmerge.trans rfl, rfl, fun h => ?_⟩
  have hend := h (.ofFields 2023 2 28 0 0 0 0) ⟨_, rfl, by decide, by decide⟩
  exact Int.lt_irrefl _ hend.2

end Segment

end TenantQuery
