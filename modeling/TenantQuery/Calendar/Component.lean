import TenantQuery.Calendar.Instant
import TenantQuery.Json.Record

namespace TenantQuery

inductive Component where
  | hour
  | day
  | week
  | month
  | quarter
  | year
  -- No unit at all: nothing is shifted and nothing is snapped.
  | unset
deriving DecidableEq, Inhabited

namespace Component

def name : Component → String
  | .hour => "hour"
  | .day => "day"
  | .week => "week"
  | .month => "month"
  | .quarter => "quarter"
  | .year => "year"
  | .unset => ""

def known : List Component :=
  [.hour, .day, .week, .month, .quarter, .year]

def ofName? (s : String) : Option Component :=
  known.find? fun c => c.name = s

def read (j : Json) : Except Error Component :=
  Json.readName "component" ofName? j

def encode (c : Component) : Json :=
  .string c.name

end Component

namespace Instant

open Calendar

/-- The day of the month is cut down to the length of the month that is reached. -/
def addMonths (t : Instant) (n : Int) : Instant :=
  let d := t.date
  let months := d.month - 1 + n
  let year := d.year + months / 12
  let month := months % 12 + 1
  ⟨dayNumber year month (min d.day (daysInMonth year month)) * nanosPerDay + t.timeOfDay⟩

/-- A span of hours is counted in nanoseconds of 64 bits and wraps around. -/
def hourSpan (n : Int) : Int :=
  Int.bmod (n * nanosPerHour) Word.count

def add (t : Instant) (c : Component) (n : Int) : Instant :=
  match c with
  | .hour => t.addNanos (hourSpan n)
  | .day => t.addDays n
  | .week => t.addDays (7 * n)
  | .month => t.addMonths n
  | .quarter => t.addMonths (3 * n)
  | .year => t.addMonths (12 * n)
  | .unset => t

def weekday (t : Instant) : Int :=
  (t.day + 3) % 7

def beginningOf (t : Instant) (c : Component) : Instant :=
  let d := t.date
  match c with
  | .hour => ⟨t.nanos / nanosPerHour * nanosPerHour⟩
  | .day => ofDay t.day
  | .week => ofDay (t.day - t.weekday)
  | .month => ofDay (dayNumber d.year d.month 1)
  | .quarter => ofDay (dayNumber d.year ((d.month - 1) / 3 * 3 + 1) 1)
  | .year => ofDay (dayNumber d.year 1 1)
  | .unset => t

def endOf (t : Instant) (c : Component) : Instant :=
  ((t.beginningOf c).add c 1).addSeconds (-1)

/-- The number of whole months from `a` to `b`, none when `b` comes first. -/
def monthsBetween (a b : Instant) : Int :=
  if b < a then 0
  else
    let n := (b.date.year - a.date.year) * 12 + b.date.month - a.date.month
    if b < a.addMonths n then n - 1 else n

end Instant

end TenantQuery
