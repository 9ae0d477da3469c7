import TenantQuery.Calendar.Interval
import TenantQuery.Proofs.Calendar.Timestamp
import TenantQuery.Proofs.Json.Record

namespace TenantQuery

namespace Interval

open Json

/-- The calendar has both ends of the window. -/
structure Dated (i : Interval) : Prop where
  start : i.start.Representable
  stop : i.stop.Representable

def settled (i : Interval) : Interval :=
  ⟨i.start.settled, i.stop.settled⟩

theorem wire_settled (i : Interval) : i.settled.wire = i.wire := by
  simp only [wire, settled, Instant.wire_settled]

theorem toList_wire (i : Interval) :
    i.wire.toList = Timestamp.write i.start ++ '/' :: Timestamp.write i.stop := by
  simp [wire, Instant.wire]

theorem parse_wire {i : Interval} (h : i.Dated) : parse i.wire = .ok i.settled := by
  have hmark : ∀ c ∈ Timestamp.write i.start, decide (c ≠ '/') = true := by
    intro c hc
    simpa using (Instant.toNat_lt_of_mem_write hc).2.2
  have htake : i.wire.toList.takeWhile (· ≠ '/') = Timestamp.write i.start := by
    rw [toList_wire, List.takeWhile_append_of_pos hmark]
    simp
  have hdrop : i.wire.toList.dropWhile (· ≠ '/') = '/' :: Timestamp.write i.stop := by
    rw [toList_wire, List.dropWhile_append_of_pos hmark]
    simp
  have hstart : Instant.parse (String.ofList (Timestamp.write i.start)) = .ok i.start.settled :=
    Instant.parse_wire h.start
  have hstop : Instant.parse (String.ofList (Timestamp.write i.stop)) = .ok i.stop.settled :=
    Instant.parse_wire h.stop
  simp only [parse, htake, hdrop, hstart, hstop, Outcome.ok_bind, Outcome.pure_eq_ok, settled]

theorem read_encode {i : Interval} (h : i.Dated) : read i.encode = .ok i.settled := by
  simp only [encode, read, readWith, Slot.text, Slot.kept, readText, Outcome.mapError_ok,
    Outcome.ok_bind, parse_wire h]

theorem dated_of_parse {s : String} {i : Interval} (h : parse s = .ok i) : i.Dated := by
  unfold parse at h
  dsimp only at h
  split at h
  · cases h
  · obtain ⟨start, hstart, h⟩ := Outcome.bind_eq_ok.1 h
    obtain ⟨stop, hstop, h⟩ := Outcome.bind_eq_ok.1 h
    cases h
    exact ⟨Instant.representable_of_parse hstart, Instant.representable_of_parse hstop⟩

theorem dated_of_read {j : Json} {i : Interval} (h : read j = .ok i) : i.Dated := by
  obtain ⟨s, -, h⟩ := Outcome.bind_eq_ok.1 h
  exact dated_of_parse h

theorem dated_zero : zero.Dated :=
  ⟨by decide, by decide⟩

theorem normal_wire (i : Interval) : Text.normal i.wire = i.wire := by
  refine Text.normal_eq_self ?_
  rw [toList_wire]
  simp only [List.all_append, List.all_cons, Instant.all_write, Bool.and_true, Bool.true_and]
  rfl

theorem codes {i : Interval} (h : i.Dated) :
    Codes encode (Slot.fresh read []) i i.settled i.settled where
  alike := by
    have halike := Alike.string i.wire
    rw [normal_wire] at halike
    rw [encode, encode, wire_settled]
    exact halike
  notNull := rfl
  reads _ := by
    rw [encode, settled_string, normal_wire]
    exact read_encode h

/-- Instants of the calendar are read back from what they are written as without what is left below
their milliseconds, whatever the sign and the length of their years, and so are windows, as text and
in documents. What is read back is written in the same way. The calendar has all years of up to eleven
digits and many more, and every instant that is read. -/
theorem timestamps_readBack :
    (∀ t : Instant, Instant.firstYear < t.date.year → t.date.year < -Instant.firstYear →
      t.Representable) ∧
    (∀ s t, Instant.parse s = .ok t → t.Representable) ∧
    (∀ t : Instant, t.Representable →
      Instant.parse t.wire = .ok t.settled ∧ t.settled.wire = t.wire) ∧
    ∀ i : Interval, i.Dated →
      parse i.wire = .ok i.settled ∧ read i.encode = .ok i.settled ∧ i.settled.wire = i.wire := by
  refine ⟨fun t => Instant.representable_of_year, fun s t => Instant.representable_of_parse, ?_, ?_⟩
  · intro t h
    exact ⟨Instant.parse_wire h, t.wire_settled⟩
  · intro i h
    exact ⟨parse_wire h, read_encode h, i.wire_settled⟩

def eternity : Interval :=
  ⟨.ofFields (-146136543) 9 8 8 23 32 96000000, .ofFields 146140482 4 24 15 36 27 903999999⟩

theorem timestamps_readBack_eternity :
    eternity.stop.date.year = 146140482 ∧ eternity.Dated ∧
    Instant.parse eternity.stop.wire = .ok (.ofFields 146140482 4 24 15 36 27 903000000) ∧
    parse eternity.wire =
      .ok ⟨eternity.start, .ofFields 146140482 4 24 15 36 27 903000000⟩ ∧
    eternity.settled.wire = eternity.wire := by
  obtain ⟨hyear, -, hinstant, hwindow⟩ := timestamps_readBack
  have hdated : eternity.Dated :=
    ⟨hyear _ (by decide) (by decide), hyear _ (by decide) (by decide)⟩
  obtain ⟨hparse, -, hsame⟩ := hwindow eternity hdated
  exact ⟨by decide, hdated, (hinstant _ hdated.stop).1, hparse, hsame⟩

end Interval

end TenantQuery
