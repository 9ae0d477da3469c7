import TenantQuery.Number.Word

namespace TenantQuery

/-- Nanoseconds since the beginning of 1970. -/
structure Instant where
  nanos : Int
deriving DecidableEq, Inhabited

namespace Calendar

def isLeap (year : Int) : Bool :=
  year % 4 == 0 && (year % 100 != 0 || year % 400 == 0)

def daysBeforeYear (year : Int) : Int :=
  365 * (year - 1) + (year - 1) / 4 - (year - 1) / 100 + (year - 1) / 400

def monthOffset : Int → Int
  | 1 => 0
  | 2 => 31
  | 3 => 59
  | 4 => 90
  | 5 => 120
  | 6 => 151
  | 7 => 181
  | 8 => 212
  | 9 => 243
  | 10 => 273
  | 11 => 304
  | _ => 334

def daysBeforeMonth (year month : Int) : Int :=
  monthOffset month + if 2 < month ∧ isLeap year then 1 else 0

def daysInMonth (year month : Int) : Int :=
  if month = 2 then (if isLeap year then 29 else 28)
  else if month = 4 ∨ month = 6 ∨ month = 9 ∨ month = 11 then 30
  else 31

def epochDay : Int := 719162

def dayNumber (year month day : Int) : Int :=
  daysBeforeYear year + daysBeforeMonth year month + (day - 1) - epochDay

def yearOfDay (n : Int) : Int :=
  let guess := 400 * n / 146097 + 1
  if n < daysBeforeYear guess then guess - 1
  else if daysBeforeYear (guess + 1) ≤ n then guess + 1
  else guess

def monthOfDay (year dayOfYear : Int) : Int :=
  if dayOfYear < daysBeforeMonth year 2 then 1
  else if dayOfYear < daysBeforeMonth year 3 then 2
  else if dayOfYear < daysBeforeMonth year 4 then 3
  else if dayOfYear < daysBeforeMonth year 5 then 4
  else if dayOfYear < daysBeforeMonth year 6 then 5
  else if dayOfYear < daysBeforeMonth year 7 then 6
  else if dayOfYear < daysBeforeMonth year 8 then 7
  else if dayOfYear < daysBeforeMonth year 9 then 8
  else if dayOfYear < daysBeforeMonth year 10 then 9
  else if dayOfYear < daysBeforeMonth year 11 then 10
  else if dayOfYear < daysBeforeMonth year 12 then 11
  else 12

structure Date where
  year : Int
  month : Int
  day : Int
deriving DecidableEq

def dateOf (dayNumber : Int) : Date :=
  let n := dayNumber + epochDay
  let year := yearOfDay n
  let dayOfYear := n - daysBeforeYear year
  let month := monthOfDay year dayOfYear
  ⟨year, month, dayOfYear - daysBeforeMonth year month + 1⟩

def nanosPerSecond : Int := 1000000000
def nanosPerHour : Int := 3600 * nanosPerSecond
def nanosPerDay : Int := 86400 * nanosPerSecond

end Calendar

namespace Instant

open Calendar

instance : LE Instant := ⟨fun a b => a.nanos ≤ b.nanos⟩
instance : LT Instant := ⟨fun a b => a.nanos < b.nanos⟩

instance (a b : Instant) : Decidable (a ≤ b) :=
  inferInstanceAs (Decidable (a.nanos ≤ b.nanos))

instance (a b : Instant) : Decidable (a < b) :=
  inferInstanceAs (Decidable (a.nanos < b.nanos))

def compare (a b : Instant) : Ordering :=
  Ord.compare a.nanos b.nanos

def addNanos (t : Instant) (n : Int) : Instant :=
  ⟨t.nanos + n⟩

def addSeconds (t : Instant) (n : Int) : Instant :=
  t.addNanos (n * nanosPerSecond)

def addDays (t : Instant) (n : Int) : Instant :=
  t.addNanos (n * nanosPerDay)

def unixSeconds (t : Instant) : Int :=
  t.nanos / nanosPerSecond

def subsecond (t : Instant) : Int :=
  t.nanos % nanosPerSecond

def day (t : Instant) : Int :=
  t.nanos / nanosPerDay

def timeOfDay (t : Instant) : Int :=
  t.nanos % nanosPerDay

def date (t : Instant) : Date :=
  dateOf t.day

def ofDay (n : Int) : Instant :=
  ⟨n * nanosPerDay⟩

/-- What the fields of a timestamp add up to. Fields past their range carry over into the larger
ones. -/
def total (year month day hour minute second nanos : Int) : Instant :=
  let months := month - 1
  let days := dayNumber (year + months / 12) (months % 12 + 1) day
  ⟨((days * 24 + hour) * 60 + minute) * 60 * nanosPerSecond + second * nanosPerSecond + nanos⟩

/-- The calendar begins in March of this year and goes on for as many seconds as there are words. -/
def firstYear : Int := -292277022400

def firstNano : Int := dayNumber firstYear 3 1 * nanosPerDay

def nanosInAll : Int := Word.count * nanosPerSecond

def Representable (t : Instant) : Prop :=
  firstNano ≤ t.nanos ∧ t.nanos < firstNano + nanosInAll

instance (t : Instant) : Decidable t.Representable :=
  inferInstanceAs (Decidable (_ ∧ _))

/-- Seconds are counted on from the other end of the calendar where it has none. -/
def wrap (t : Instant) : Instant :=
  ⟨t.nanos - (t.nanos - firstNano) / nanosInAll * nanosInAll⟩

/-- The year to count with in place of `year`. It is found by words, too, by the March before the
month. -/
def wrapYear (year month : Int) : Int :=
  let months := month - 1
  let past := year + months / 12 - (if months % 12 < 2 then 1 else 0) - firstYear
  year - past / Word.count * Word.count

def ofFields (year month day hour minute second nanos : Int) : Instant :=
  (total (wrapYear year month) month day hour minute second nanos).wrap

end Instant

end TenantQuery
