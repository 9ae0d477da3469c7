import TenantQuery.Calendar.Granularity
import TenantQuery.Calendar.Timestamp

namespace TenantQuery

structure Interval where
  start : Instant
  stop : Instant
deriving DecidableEq

namespace Interval

/-- The window at the beginning of year 1 that a document without one stands for. -/
def zero : Interval :=
  ⟨Instant.ofFields 1 1 1 0 0 0 0, Instant.ofFields 1 1 1 0 0 0 0⟩

def parse (s : String) : Except Error Interval :=
  let cs := s.toList
  match cs.dropWhile (· ≠ '/') with
  | [] => .error (.notAnInterval s)
  | _ :: stop => do
    let start ← Instant.parse (String.ofList (cs.takeWhile (· ≠ '/')))
    return ⟨start, ← Instant.parse (String.ofList stop)⟩

def wire (i : Interval) : String :=
  i.start.wire ++ "/" ++ i.stop.wire

def read (j : Json) : Except Error Interval := do
  parse (← (Json.readWith Json.Slot.text j).mapError (.within "interval"))

def encode (i : Interval) : Json :=
  .string i.wire

def compare (a b : Interval) : Ordering :=
  (a.start.compare b.start).then (a.stop.compare b.stop)

def slot : Json.Slot (Option (List Interval)) :=
  Json.Slot.list (Json.Slot.fresh read)

end Interval

end TenantQuery
