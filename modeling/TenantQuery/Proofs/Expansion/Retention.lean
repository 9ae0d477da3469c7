import Mathlib.Data.List.Nodup
import TenantQuery.Proofs.Calendar.Unit
import TenantQuery.Proofs.Expansion.Fits
import TenantQuery.Proofs.Expansion.Sketch
import TenantQuery.Proofs.Json.Places

namespace TenantQuery

/-- An event that happens at a time, which decides what is asked about the time of the event. -/
structure TimedEvent extends Event where
  time : Instant
  during (windows : List Interval) : passes (.during ⟨"__time", some windows⟩) = true ↔
    ∃ i ∈ windows, i.start ≤ time ∧ time < i.stop

namespace Expansion

open TenantQuery.Filter Json

/-- A user with an event in a time window that matches the filter of a query. -/
def Active (options : Options) (q : Query) (events : List TimedEvent) (window : Interval)
    (u : String) : Prop :=
  ∃ e ∈ events, e.value options.userDimension = some u ∧ MatchesOptional e.toEvent q.filter ∧
    window.start ≤ e.time ∧ e.time < window.stop

theorem takes_during (options : Options) (q : Query) (events : List TimedEvent) (window : Interval)
    (u : String) :
    Takes options q (events.map TimedEvent.toEvent) (.test (.during ⟨"__time", some [window]⟩)) u ↔
      Active options q events window u := by
  have hduring (e : TimedEvent) :
      (Filter.test (.during ⟨"__time", some [window]⟩)).Matches e.toEvent ↔
        window.start ≤ e.time ∧ e.time < window.stop := by
    rw [Matches]
    exact (e.during [window]).trans (by simp)
  simp only [Takes, Active, List.mem_map, exists_exists_and_eq_and, hduring]

namespace Retention

/-- The calendar month `k` months after the one of an instant, up to its last second. -/
def monthAfter (t : Instant) (k : Nat) : Interval :=
  ⟨.total t.date.year (t.date.month + k) 1 0 0 0 0,
   .total t.date.year (t.date.month + k + 1) 1 0 0 (-1) 0⟩

theorem total_month (t : Instant) (k s : Int) :
    Instant.total t.date.year (t.date.month + k) 1 0 0 s 0 =
      (Calendar.monthStart (t.monthNumber + k)).addSeconds s := by
  have hyear : (t.monthNumber + k) / 12 = t.date.year + (t.date.month + k - 1) / 12 := by
    unfold Instant.monthNumber
    omega
  have hmonth : (t.monthNumber + k) % 12 = (t.date.month + k - 1) % 12 := by
    unfold Instant.monthNumber
    omega
  simp only [Instant.total, Calendar.monthStart, Calendar.firstDay, hyear, hmonth, Instant.ofDay,
    Instant.addSeconds, Instant.addNanos, Calendar.nanosPerDay, Instant.mk.injEq]
  ring

theorem monthAfter_eq (t : Instant) (k : Nat) :
    monthAfter t k = ⟨Calendar.monthStart (t.monthNumber + k),
      (Calendar.monthStart (t.monthNumber + k + 1)).addSeconds (-1)⟩ := by
  have hzero (s : Instant) : s.addSeconds 0 = s := by
    simp [Instant.addSeconds, Instant.addNanos]
  rw [monthAfter, total_month t k 0, hzero, Int.add_assoc, total_month t (k + 1) (-1),
    Int.add_assoc]

theorem month_eq (t : Instant) (k : Nat) : month t k = monthAfter t k := by
  have hshifts : Component.Shifts .month k := ⟨by decide, fun h => nomatch h⟩
  have hfirst : (t.add .month k).beginningOf .month = Component.startOf .month (t.monthNumber + k) := by
    rw [Component.beginningOf_eq, Component.number_add hshifts]
    rfl
  rw [month, hfirst, Component.endOf_eq (by decide), Component.number_startOf, monthAfter_eq]
  rfl

theorem start_monthAfter_succ (t : Instant) (k : Nat) :
    (monthAfter t (k + 1)).start = (monthAfter t k).stop.addSeconds 1 := by
  have hback (s : Instant) : (s.addSeconds (-1)).addSeconds 1 = s := by
    simp [Instant.addSeconds, Instant.addNanos]
  rw [monthAfter_eq, monthAfter_eq, hback, Nat.cast_succ, ← Int.add_assoc]

theorem start_monthAfter_zero (t : Instant) : (monthAfter t 0).start = t.beginningOf .month := by
  rw [Component.beginningOf_eq, monthAfter_eq]
  exact congrArg Calendar.monthStart (Int.add_zero _)

theorem months_eq {start stop : Instant} {n : Nat} (hn : start.monthsBetween stop = n) :
    months start stop = (List.range (n + 1)).map (monthAfter start) := by
  have hcount : ((n : Int) + 1).toNat = n + 1 := by omega
  rw [months, hn, hcount]
  exact List.map_congr_left fun k _ => month_eq start k

theorem dated_monthAfter {w : Interval} (hyears : w.Moderate) {n k : Nat}
    (hn : w.start.monthsBetween w.stop = n) (hk : k ≤ n) : (monthAfter w.start k).Dated := by
  refine dated_months hyears.start hyears.stop _ ?_
  rw [months_eq hn]
  exact List.mem_map_of_mem (List.mem_range.2 (by omega))

theorem toList_title (m : Interval) :
    (title m).toList = Timestamp.write m.start ++ '_' :: Timestamp.write m.stop := by
  simp [title, Instant.wire]

theorem underscore_notMem_write (t : Instant) : '_' ∉ Timestamp.write t := by
  intro h
  exact absurd (Instant.toNat_lt_of_mem_write h).2.1 (by decide)

theorem split_underscore {a a' b b' : List Char} (ha : '_' ∉ a) (ha' : '_' ∉ a')
    (h : a ++ '_' :: b = a' ++ '_' :: b') : a = a' ∧ b = b' := by
  have htake (xs ys : List Char) (hxs : '_' ∉ xs) : (xs ++ '_' :: ys).takeWhile (· ≠ '_') = xs := by
    have hplain (c : Char) (hc : c ∈ xs) : decide (c ≠ '_') = true :=
      decide_eq_true fun hmark => hxs (hmark ▸ hc)
    rw [List.takeWhile_append_of_pos hplain]
    simp
  have heq : a = a' := by
    rw [← htake a b ha, h, htake a' b' ha']
  subst heq
  exact ⟨rfl, (List.cons.inj (List.append_cancel_left h)).2⟩

theorem eq_of_write_start {t : Instant} {j k : Nat} (hj : (monthAfter t j).Dated)
    (hk : (monthAfter t k).Dated)
    (h : Timestamp.write (monthAfter t j).start = Timestamp.write (monthAfter t k).start) : j = k := by
  have hsettled (i : Nat) : (monthAfter t i).start.settled = (monthAfter t i).start := by
    simp only [monthAfter_eq, Calendar.monthStart, Instant.settled, Instant.ofDay,
      Calendar.nanosPerDay, Calendar.nanosPerSecond, Instant.mk.injEq]
    omega
  have hparse := Instant.parse_wire hj.start
  rw [Instant.wire, h, ← Instant.wire, Instant.parse_wire hk.start, hsettled, hsettled] at hparse
  simp only [monthAfter_eq, Except.ok.injEq] at hparse
  have hnumber : t.monthNumber + k = t.monthNumber + j :=
    Component.startOf_injective (c := .month) hparse
  omega

def countName (row column : Interval) : String :=
  "retention_" ++ title row ++ "_" ++ title column

theorem toList_countName (row column : Interval) :
    (countName row column).toList = "retention_".toList ++ (Timestamp.write row.start ++ '_' ::
      (Timestamp.write row.stop ++ '_' :: (Timestamp.write column.start ++ '_' ::
        Timestamp.write column.stop))) := by
  simp [countName, toList_title]

theorem sketchName_injective {t : Instant} {j k : Nat} (hj : (monthAfter t j).Dated)
    (hk : (monthAfter t k).Dated)
    (h : sketchName (monthAfter t j) = sketchName (monthAfter t k)) : j = k := by
  have hlist := congrArg String.toList h
  simp only [sketchName, String.toList_append, toList_title, List.append_cancel_left_eq] at hlist
  exact eq_of_write_start hj hk
    (split_underscore (underscore_notMem_write _) (underscore_notMem_write _) hlist).1

theorem countName_injective {t : Instant} {i j i' j' : Nat} (hi : (monthAfter t i).Dated)
    (hj : (monthAfter t j).Dated) (hi' : (monthAfter t i').Dated) (hj' : (monthAfter t j').Dated)
    (h : countName (monthAfter t i) (monthAfter t j) =
      countName (monthAfter t i') (monthAfter t j')) : i = i' ∧ j = j' := by
  have hlist := congrArg String.toList h
  rw [toList_countName, toList_countName] at hlist
  have hsplit {s s' : Instant} {rest rest' : List Char}
      (h : Timestamp.write s ++ '_' :: rest = Timestamp.write s' ++ '_' :: rest') :=
    split_underscore (underscore_notMem_write s) (underscore_notMem_write s') h
  -- The first and the third of the four timestamps are where the two months begin.
  obtain ⟨hrow, hlist⟩ := hsplit (List.append_cancel_left hlist)
  obtain ⟨-, hlist⟩ := hsplit hlist
  exact ⟨eq_of_write_start hi hi' hrow, eq_of_write_start hj hj' (hsplit hlist).1⟩

theorem sketchName_ne_countName (m row column : Interval) : sketchName m ≠ countName row column := by
  intro h
  have hlist := congrArg String.toList h
  simp [sketchName, countName] at hlist

theorem normal_sketchName (m : Interval) : Text.normal (sketchName m) = sketchName m := by
  refine Text.normal_eq_self ?_
  rw [sketchName, String.toList_append, toList_title]
  simp only [List.all_append, List.all_cons, Instant.all_write, Bool.and_true]
  rfl

theorem normal_countName (row column : Interval) :
    Text.normal (countName row column) = countName row column := by
  refine Text.normal_eq_self ?_
  rw [toList_countName]
  simp only [List.all_append, List.all_cons, Instant.all_write, Bool.and_true, Bool.true_and]
  rfl

theorem distinctFrom_eq_self {α : Type} {encode : α → Json} {as : List α} {seen : List String}
    (hseen : ∀ a ∈ as, ∀ key ∈ seen, (encode a).canonical ≠ .ok key)
    (hapart : as.Pairwise fun a b =>
      ∀ key, (encode a).canonical = .ok key → (encode b).canonical ≠ .ok key) :
    distinctFrom encode seen as = as := by
  -- The texts that were seen are those of elements before, so that none comes up again.
  induction as generalizing seen with
  | nil => rfl
  | cons a as ih =>
      obtain ⟨hhead, htail⟩ := List.pairwise_cons.1 hapart
      obtain ⟨hfirst, hrest⟩ := List.forall_mem_cons.1 hseen
      rw [distinctFrom]
      split
      · rw [ih hrest htail]
      · rename_i key hkey
        have hnew : ¬ seen.contains key = true := fun hmem =>
          hfirst key (List.contains_iff_mem.1 hmem) hkey
        rw [if_neg hnew, ih _ htail]
        intro b hb
        exact List.forall_mem_cons.2 ⟨hhead b hb key hkey, hrest b hb⟩

/-- Values that are read back under the names they were written with, and no two under one name,
are all kept. -/
theorem distinct_eq_self {α : Type} {encode : α → Json} (read : Nat → Option Json → Except Error α)
    (settle : α → α) {name : α → String} {as : List α}
    (hreads : ∀ a ∈ as, Rereads encode read a (settle a))
    (hname : ∀ a ∈ as, name (settle a) = name a) (hnodup : (as.map name).Nodup) :
    distinct encode as = as := by
  refine distinctFrom_eq_self (by simp) ((List.pairwise_map.1 hnodup).imp_of_mem ?_)
  intro a b ha hb hne key hkey hkey'
  refine hne ?_
  rw [← hname a ha, ← hname b hb, (hreads a ha).settle_eq (hreads b hb) hkey hkey']

def pairs {α : Type} : List α → List (α × α)
  | [] => []
  | a :: as => (a :: as).map (fun b => (a, b)) ++ pairs as

theorem triangle_map {α : Type} (month : α → Interval) (as : List α) :
    triangle (as.map month) = (pairs as).map fun c => postAggregator (month c.1) (month c.2) := by
  induction as with
  | nil => rfl
  | cons a as ih =>
      rw [List.map_cons, triangle, ih, pairs, List.map_append, ← List.map_cons, List.map_map,
        List.map_map]
      rfl

theorem mem_pairs {is : List Nat} (hsorted : is.Pairwise (· < ·)) {i j : Nat} :
    (i, j) ∈ pairs is ↔ i ∈ is ∧ j ∈ is ∧ i ≤ j := by
  induction is with
  | nil => simp [pairs]
  | cons a as ih =>
      obtain ⟨hfirst, hrest⟩ := List.pairwise_cons.1 hsorted
      rw [pairs, List.mem_append, ih hrest]
      simp only [List.mem_map, List.mem_cons, Prod.mk.injEq]
      constructor
      · rintro (⟨b, hb, rfl, rfl⟩ | ⟨hi, hj, hle⟩)
        · exact ⟨.inl rfl, hb, hb.elim (fun h => h.ge) fun h => (hfirst b h).le⟩
        · exact ⟨.inr hi, .inr hj, hle⟩
      · rintro ⟨rfl | hi, hj, hle⟩
        · exact .inl ⟨j, hj, rfl, rfl⟩
        · rcases hj with rfl | hj
          · exact absurd hle (Nat.not_le.2 (hfirst i hi))
          · exact .inr ⟨hi, hj, hle⟩

theorem nodup_pairs {is : List Nat} (hsorted : is.Pairwise (· < ·)) : (pairs is).Nodup := by
  induction is with
  | nil => exact .nil
  | cons a as ih =>
      obtain ⟨hfirst, hrest⟩ := List.pairwise_cons.1 hsorted
      have hnodup : (a :: as).Nodup := hsorted.imp Nat.ne_of_lt
      rw [pairs, List.nodup_append]
      refine ⟨hnodup.map fun b c h => (Prod.mk.inj h).2, ih hrest, ?_⟩
      -- A pair of later elements begins with one after `a`.
      rintro c hc ⟨i, j⟩ hd rfl
      obtain ⟨b, -, hb⟩ := List.mem_map.1 hc
      obtain ⟨rfl, -⟩ := Prod.mk.inj hb
      exact absurd (hfirst a ((mem_pairs hrest).1 hd).1) (Nat.lt_irrefl a)

theorem length_pairs {α : Type} (as : List α) :
    2 * (pairs as).length = as.length * (as.length + 1) := by
  induction as with
  | nil => rfl
  | cons a as ih =>
      rw [pairs, List.length_append, List.length_map, List.length_cons, Nat.mul_add, ih]
      ring

section Expanded

variable {options : Options} {w : Interval} {n : Nat}

def sketches (options : Options) (w : Interval) (n : Nat) : List Aggregator :=
  (List.range (n + 1)).map fun k => aggregator options (monthAfter w.start k)

/-- One count for each two months of a window. -/
def counts (w : Interval) (n : Nat) : List PostAggregator :=
  (pairs (List.range (n + 1))).map fun c =>
    postAggregator (monthAfter w.start c.1) (monthAfter w.start c.2)

theorem outputName_sketches :
    (sketches options w n).map Aggregator.outputName =
      (List.range (n + 1)).map fun k => sketchName (monthAfter w.start k) := by
  rw [sketches, List.map_map]
  rfl

theorem outputName_counts :
    (counts w n).map PostAggregator.outputName = (pairs (List.range (n + 1))).map fun c =>
      countName (monthAfter w.start c.1) (monthAfter w.start c.2) := by
  rw [counts, List.map_map]
  rfl

theorem mem_pairs_range {i j : Nat} : (i, j) ∈ pairs (List.range (n + 1)) ↔ i ≤ j ∧ j ≤ n := by
  rw [mem_pairs List.pairwise_lt_range, List.mem_range, List.mem_range]
  omega

theorem length_counts (w : Interval) (n : Nat) : (counts w n).length = (n + 1) * (n + 2) / 2 := by
  have hlength : 2 * (pairs (List.range (n + 1))).length = (n + 1) * (n + 2) := by
    rw [length_pairs, List.length_range]
  rw [counts, List.length_map, ← hlength, Nat.mul_div_cancel_left _ (by decide)]

variable (hyears : w.Moderate) (hn : w.start.monthsBetween w.stop = n)

include hyears hn

theorem nodup_sketches : ((sketches options w n).map Aggregator.outputName).Nodup := by
  rw [outputName_sketches]
  refine List.nodup_range.map_on fun j hj k hk h => ?_
  rw [List.mem_range, Nat.lt_succ_iff] at hj hk
  exact sketchName_injective (dated_monthAfter hyears hn hj) (dated_monthAfter hyears hn hk) h

theorem nodup_counts : ((counts w n).map PostAggregator.outputName).Nodup := by
  rw [outputName_counts]
  refine (nodup_pairs List.pairwise_lt_range).map_on ?_
  rintro ⟨i, j⟩ hc ⟨i', j'⟩ hc' h
  rw [mem_pairs_range] at hc hc'
  have hdated {k : Nat} (hk : k ≤ n) := dated_monthAfter hyears hn hk
  obtain ⟨rfl, rfl⟩ := countName_injective (hdated (hc.1.trans hc.2)) (hdated hc.2)
    (hdated (hc'.1.trans hc'.2)) (hdated hc'.2) h
  rfl

theorem nodup_outputNames :
    ((sketches options w n).map Aggregator.outputName ++
      (counts w n).map PostAggregator.outputName).Nodup := by
  refine List.nodup_append.2 ⟨nodup_sketches hyears hn, nodup_counts hyears hn, ?_⟩
  rw [outputName_sketches, outputName_counts]
  intro a ha b hb
  obtain ⟨k, -, rfl⟩ := List.mem_map.1 ha
  obtain ⟨c, -, rfl⟩ := List.mem_map.1 hb
  exact sketchName_ne_countName _ _ _

theorem distinct_sketches :
    distinct Aggregator.encode (sketches options w n) = sketches options w n := by
  refine distinct_eq_self Aggregator.readWithin Aggregator.settled (fun a ha => ?_)
    (fun a ha => ?_) (nodup_sketches hyears hn)
  · obtain ⟨k, hk, rfl⟩ := List.mem_map.1 ha
    have hdated := dated_monthAfter hyears hn (Nat.lt_succ_iff.1 (List.mem_range.1 hk))
    exact Aggregator.rereads _ (fits_filteredSketch options _ _) (aggregator_dated options hdated)
  · obtain ⟨k, -, rfl⟩ := List.mem_map.1 ha
    exact normal_sketchName (monthAfter w.start k)

theorem distinct_counts : distinct PostAggregator.encode (counts w n) = counts w n := by
  refine distinct_eq_self PostAggregator.readWithin PostAggregator.settled (fun p hp => ?_)
    (fun p hp => ?_) (nodup_counts hyears hn)
  · obtain ⟨c, -, rfl⟩ := List.mem_map.1 hp
    exact PostAggregator.rereads _ (fits_intersection _)
  · obtain ⟨c, -, rfl⟩ := List.mem_map.1 hp
    exact normal_countName _ _

theorem usersOf_month {q out : Query} (hfilter : out.filter = q.filter)
    (hsketches : out.aggregations = some (sketches options w n)) (events : List TimedEvent) {k : Nat}
    (hk : k ≤ n) :
    out.usersOf (events.map TimedEvent.toEvent) (sketchName (monthAfter w.start k)) =
      some {u | Active options q events (monthAfter w.start k) u} := by
  have hmem : aggregator options (monthAfter w.start k) ∈ sketches options w n :=
    List.mem_map_of_mem (List.mem_range.2 (Nat.lt_succ_iff.2 hk))
  refine (Query.usersOf_of_mem hsketches (nodup_sketches hyears hn) hmem _).trans ?_
  rw [aggregator, users_filteredSketch_of_row (q := q) _ _ fun e _ => by rw [hfilter]]
  simp only [takes_during]

theorem estimate_postAggregator {q out : Query} (hfilter : out.filter = q.filter)
    (hsketches : out.aggregations = some (sketches options w n)) (events : List TimedEvent)
    {i j : Nat} (hi : i ≤ n) (hj : j ≤ n) :
    (postAggregator (monthAfter w.start i) (monthAfter w.start j)).estimate
        (out.usersOf (events.map TimedEvent.toEvent)) =
      some {u | Active options q events (monthAfter w.start i) u ∧
        Active options q events (monthAfter w.start j) u}.ncard := by
  have hmonth {k : Nat} (hk : k ≤ n) := usersOf_month hyears hn hfilter hsketches events hk
  exact estimate_intersection (hmonth hi) (hmonth hj) _

theorem retention_eq {q : Query} (hwindow : window options q = .ok w) (hlong : 1 ≤ n) :
    retention options q = .ok { q with
      queryType := .groupBy
      granularity := .all
      aggregations := some (sketches options w n)
      postAggregations := some (counts w n) } := by
  have hwhole : ¬ w.start.monthsBetween w.stop < 1 := by
    rw [hn]
    omega
  have hsketches : (months w.start w.stop).map (aggregator options) = sketches options w n := by
    rw [months_eq hn, List.map_map]
    rfl
  have hcounts : triangle (months w.start w.stop) = counts w n := by
    rw [months_eq hn, triangle_map]
    rfl
  rw [retention, hwindow]
  simp only [Outcome.ok_bind, if_neg hwhole, hsketches, hcounts, distinct_sketches hyears hn,
    distinct_counts hyears hn]
  rfl

end Expanded

end Retention

section

open Retention

/-- A retention query over a window of `n` whole months is expanded to one sketch for each of the
`n + 1` months from the one that the window begins in, and to one count for each two of them, under
names that are all distinct. A count is the number of users that are active in both months. A window
of no whole month is refused. -/
theorem retention_triangle (options : Options) (q : Query) (w : Interval)
    (hwindow : window options q = .ok w) :
    (w.start.monthsBetween w.stop < 1 →
      ∃ e, retention options q = .error e ∧ e.code = .notImplemented) ∧
    ∀ n : Nat, w.Moderate → w.start.monthsBetween w.stop = n → 1 ≤ n →
      ∃ (out : Query) (aggs : List Aggregator) (posts : List PostAggregator)
        (cells : List (Nat × Nat)),
        retention options q = .ok out ∧ out.aggregations = some aggs ∧
        out.postAggregations = some posts ∧
        aggs = (List.range (n + 1)).map (fun k =>
          options.filteredSketch (.test (.during ⟨"__time", some [monthAfter w.start k]⟩))
            (sketchName (monthAfter w.start k))) ∧
        (monthAfter w.start 0).start = w.start.beginningOf .month ∧
        (∀ k, (monthAfter w.start (k + 1)).start = (monthAfter w.start k).stop.addSeconds 1) ∧
        posts = cells.map (fun c => postAggregator (monthAfter w.start c.1) (monthAfter w.start c.2)) ∧
        cells.Nodup ∧ (∀ i j, (i, j) ∈ cells ↔ i ≤ j ∧ j ≤ n) ∧
        posts.length = (n + 1) * (n + 2) / 2 ∧
        (aggs.map Aggregator.outputName ++ posts.map PostAggregator.outputName).Nodup ∧
        ∀ (events : List TimedEvent) (i j : Nat), (i, j) ∈ cells →
          (postAggregator (monthAfter w.start i) (monthAfter w.start j)).estimate
              (out.usersOf (events.map TimedEvent.toEvent)) =
            some {u | Active options q events (monthAfter w.start i) u ∧
              Active options q events (monthAfter w.start j) u}.ncard := by
  constructor
  · intro hshort
    refine ⟨.shortWindow w.wire, ?_, rfl⟩
    rw [retention, hwindow]
    simp only [Outcome.ok_bind, if_pos hshort]
    rfl
  · intro n hyears hn hlong
    refine ⟨_, _, _, pairs (List.range (n + 1)), retention_eq hyears hn hwindow hlong, rfl, rfl, rfl,
      start_monthAfter_zero w.start, start_monthAfter_succ w.start, rfl,
      nodup_pairs List.pairwise_lt_range, fun i j => mem_pairs_range, length_counts w n,
      nodup_outputNames hyears hn, fun events i j hcell => ?_⟩
    obtain ⟨hle, hj⟩ := mem_pairs_range.1 hcell
    exact estimate_postAggregator hyears hn rfl rfl events (hle.trans hj) hj

def visit (user : String) (time : Instant) : TimedEvent where
  value dimension := if dimension = defaultUserField then some user else none
  passes
    | .during ⟨dimension, some windows⟩ =>
      decide (dimension = "__time" ∧ ∃ i ∈ windows, i.start ≤ time ∧ time < i.stop)
    | _ => false
  time := time
  during windows := by simp

theorem active_visit {q : Query} (hfilter : q.filter = none) (now : Instant)
    (visits : List (String × Instant)) (window : Interval) (u : String) :
    Active ⟨"", now⟩ q (visits.map fun v => visit v.1 v.2) window u ↔
      ∃ v ∈ visits, v.1 = u ∧ window.start ≤ v.2 ∧ v.2 < window.stop := by
  simp only [Active, List.mem_map, exists_exists_and_eq_and, hfilter, MatchesOptional, true_and,
    visit, Options.userDimension, if_true, Option.some.injEq]

/-- A window from the last day of January to the last day of March has the three months of that
quarter. Of the users of February one was there in January. -/
theorem retention_triangle_first_quarter :
    ∃ (out : Query) (posts : List PostAggregator),
      retention ⟨"", ⟨0⟩⟩ {
        queryType := .retention, granularity := .all
        intervals := some
          [⟨.ofFields 2023 1 31 12 0 0 0, .ofFields 2023 3 31 12 0 0 0⟩] } = .ok out ∧
      out.postAggregations = some posts ∧ posts.length = 6 ∧
      (postAggregator (monthAfter (.ofFields 2023 1 31 12 0 0 0) 0)
          (monthAfter (.ofFields 2023 1 31 12 0 0 0) 1)).estimate
        (out.usersOf [(visit "ann" (.ofFields 2023 1 31 13 0 0 0)).toEvent,
          (visit "ann" (.ofFields 2023 2 1 0 0 0 0)).toEvent,
          (visit "bob" (.ofFields 2023 2 1 0 0 0 0)).toEvent]) = some 1 := by
  let january := Instant.ofFields 2023 1 31 13 0 0 0
  let february := Instant.ofFields 2023 2 1 0 0 0 0
  let w : Interval := ⟨.ofFields 2023 1 31 12 0 0 0, .ofFields 2023 3 31 12 0 0 0⟩
  let q : Query := { queryType := .retention, granularity := .all, intervals := some [w] }
  obtain ⟨out, -, posts, cells, hout, -, hposts, -, -, -, -, -, hcells, hlength, -, hcount⟩ :=
    (retention_triangle ⟨"", ⟨0⟩⟩ q w rfl).2 2 (by decide +kernel) (by decide +kernel) (by decide)
  refine ⟨out, posts, hout, hposts, hlength, ?_⟩
  have hvalue := hcount ([("ann", january), ("ann", february), ("bob", february)].map fun v =>
    visit v.1 v.2) 0 1 ((hcells 0 1).2 (by decide))
  refine hvalue.trans ?_
  rw [Option.some.injEq, Set.ncard_eq_one]
  refine ⟨"ann", ?_⟩
  ext u
  have hfirst : (monthAfter w.start 0).start ≤ january ∧ january < (monthAfter w.start 0).stop := by
    decide +kernel
  have hnext : (monthAfter w.start 1).start ≤ february ∧ february < (monthAfter w.start 1).stop := by
    decide +kernel
  have hlater : ¬ february < (monthAfter w.start 0).stop := by decide +kernel
  have hearlier : ¬ (monthAfter w.start 1).start ≤ january := by decide +kernel
  have huser : "ann" = u ∧ ("ann" = u ∨ "bob" = u) ↔ u = "ann" := by
    constructor
    · rintro ⟨hu, -⟩
      exact hu.symm
    · rintro rfl
      exact ⟨rfl, .inl rfl⟩
  simp only [active_visit (q := q) rfl]
  simpa [hfirst, hnext, hlater, hearlier] using huser

end

end Expansion

end TenantQuery
