import TenantQuery.Calendar.Interval

namespace TenantQuery

structure Segment where
  start : Instant
  granularity : Granularity
deriving DecidableEq

namespace Segment

structure Wire where
  start : String := ""
  granularity : Granularity := .unset

def fields : List (Json.Member Wire) :=
  [.of "beginningDate" Json.Slot.text ({ · with start := · }),
   .of "duration" (Json.Slot.fresh Granularity.read) ({ · with granularity := · })]

def read (j : Json) : Except Error Segment := do
  let wire ← (Json.readRecord fields {} j).mapError (.within "time segment")
  let start ← (Instant.parse wire.start).mapError (.within "time segment")
  return ⟨start, wire.granularity⟩

def encode (s : Segment) : Json :=
  .object [("beginningDate", .string s.start.wire), ("duration", s.granularity.encode)]

def stop (s : Segment) : Except CompileError Instant :=
  match s.granularity.component? with
  | some c => .ok (s.start.add c 1)
  | none => .error (.unboundedSegment s.granularity.name)

def le (a b : Segment) : Bool :=
  a.start < b.start || (a.start == b.start && Text.codesLe a.granularity.name b.granularity.name)

def dropRepeats : List Segment → List Segment
  | [] => []
  | [s] => [s]
  | s :: t :: rest => if s = t then dropRepeats (t :: rest) else s :: dropRepeats (t :: rest)

def normalize (segments : List Segment) : List Segment :=
  dropRepeats (segments.mergeSort le)

/-- Extends `current`, whose last unit begins at `current.stop`, over segments in order. -/
def mergeFrom (g : Granularity) (c : Component) (current : Interval) :
    List Segment → Except CompileError (List Interval)
  | [] => .ok [{ current with stop := current.stop.add c 1 }]
  | s :: rest =>
    if s.granularity ≠ g then .error (.mixedSegments g.name s.granularity.name)
    else
      let next := current.stop.add c 1
      if next < s.start then do
        let later ← mergeFrom g c ⟨s.start, s.start⟩ rest
        return { current with stop := next } :: later
      else
        let stop := if current.stop < s.start then s.start else current.stop
        mergeFrom g c { current with stop := stop } rest

/-- The fewest intervals that cover the segments, all of one granularity. -/
def merge (segments : List Segment) : Except CompileError (List Interval) :=
  match normalize segments with
  | [] => .ok []
  | first :: rest =>
    match first.granularity.component? with
    | none => .error (.unsegmented first.granularity.name)
    | some c => mergeFrom first.granularity c ⟨first.start, first.start⟩ (first :: rest)

end Segment

namespace Component

def leastNanos : Component → Int
  | .hour => Calendar.nanosPerHour
  | .day => Calendar.nanosPerDay
  | .week => 7 * Calendar.nanosPerDay
  | .month => 28 * Calendar.nanosPerDay
  | .quarter => 90 * Calendar.nanosPerDay
  | .year => 365 * Calendar.nanosPerDay
  | .unset => 1

/-- Beginnings of at most `fuel` units from `t` on that come before `stop`. -/
def beginnings (c : Component) (stop : Instant) : (fuel : Nat) → Instant → List Instant
  | 0, _ => []
  | fuel + 1, t => if t < stop then t :: beginnings c stop fuel (t.add c 1) else []

end Component

namespace Interval

def segments (i : Interval) (g : Granularity) : Except CompileError (List Segment) :=
  match g.component? with
  | none => .error (.unsegmented g.name)
  | some c =>
    let first := i.start.beginningOf c
    let fuel := ((i.stop.nanos - first.nanos) / c.leastNanos + 1).toNat
    .ok ((c.beginnings i.stop fuel first).map fun t => ⟨t, g⟩)

end Interval

structure IntervalList where
  intervals : Option (List Interval)
deriving DecidableEq

namespace IntervalList

def typeName : String := "intervals"

structure Wire where
  type : String := ""
  intervals : Option (List Interval) := none

def fields : List (Json.Member Wire) :=
  [.of "type" Json.Slot.text ({ · with type := · }),
   .of "intervals" Interval.slot ({ · with intervals := · })]

def read (j : Json) : Except Error IntervalList := do
  let wire ← (Json.readRecord fields {} j).mapError (.within "intervals container")
  if wire.type ≠ typeName then throw (.unknownContainer wire.type)
  return ⟨wire.intervals⟩

def encode (l : IntervalList) : Json :=
  .object [("type", .string typeName),
    ("intervals", Json.listOrNull Interval.encode l.intervals)]

def segments (l : IntervalList) (g : Granularity) : Except CompileError (List Segment) := do
  let parts ← (l.intervals.getD []).mapM fun i => i.segments g
  return Segment.normalize parts.flatten

def ofSegments (segments : List Segment) : Except CompileError IntervalList :=
  (Segment.merge segments).map fun intervals => ⟨some intervals⟩

end IntervalList

def Segment.encodeAll (segments : List Segment) : Json :=
  if segments.isEmpty then .null else .array (segments.map Segment.encode)

end TenantQuery
