import TenantQuery.Calendar.Instant
import TenantQuery.Error
import TenantQuery.Number.Decimal
import TenantQuery.Number.Word
import TenantQuery.Text.Blank

namespace TenantQuery

namespace Timestamp

open Calendar

def padded (width : Nat) (n : Nat) : List Char :=
  let digits := Nat.toDigits 10 n
  List.replicate (width - digits.length) '0' ++ digits

def yearText (year : Int) : List Char :=
  if year < 0 then '-' :: padded 4 year.natAbs else padded 4 year.natAbs

def dateText (d : Date) : List Char :=
  yearText d.year ++ '-' :: (padded 2 d.month.toNat ++ '-' :: padded 2 d.day.toNat)

def clockText (second : Int) : List Char :=
  padded 2 (second / 3600).toNat ++ ':' ::
    (padded 2 (second / 60 % 60).toNat ++ ':' :: padded 2 (second % 60).toNat)

/-- Date, time and milliseconds, what is left below them cut off. -/
def write (t : Instant) : List Char :=
  dateText t.date ++ 'T' :: (clockText (t.timeOfDay / nanosPerSecond) ++
    '.' :: (padded 3 (t.subsecond / 1000000).toNat ++ ['Z']))

def isDigit (c : Char) : Bool :=
  Decimal.isDigit c

def digit (c : Char) : Int :=
  Decimal.digitValue c

def readFour : List Char → Option (Int × List Char)
  | a :: b :: c :: d :: rest =>
    if isDigit a && isDigit b && isDigit c && isDigit d then
      some (((digit a * 10 + digit b) * 10 + digit c) * 10 + digit d, rest)
    else none
  | _ => none

def readTwo : List Char → Option (Int × List Char)
  | a :: b :: rest => if isDigit a && isDigit b then some (digit a * 10 + digit b, rest) else none
  | _ => none

def readOneOrTwo : List Char → Option (Int × List Char)
  | a :: b :: rest =>
    if isDigit a then
      if isDigit b then some (digit a * 10 + digit b, rest) else some (digit a, b :: rest)
    else none
  | [a] => if isDigit a then some (digit a, []) else none
  | [] => none

def readMark (mark : Char) : List Char → Option (List Char)
  | c :: rest => if c = mark then some rest else none
  | [] => none

/-- Nanoseconds by the digits after the point, those past the ninth cut off. -/
def nanosOf (digits : List Char) : Int :=
  let nine := digits.take 9
  Decimal.natOf nine * Nat.pow 10 (9 - nine.length)

def readFraction : List Char → Int × List Char
  | mark :: c :: rest =>
    if (mark = '.' ∨ mark = ',') ∧ isDigit c then
      let digits := c :: rest.takeWhile isDigit
      (nanosOf digits, rest.dropWhile isDigit)
    else (0, mark :: c :: rest)
  | cs => (0, cs)

def readZone : List Char → Option (Int × List Char)
  | 'Z' :: rest => some (0, rest)
  | sign :: rest => do
    let (hour, rest) ← readTwo rest
    let rest ← readMark ':' rest
    let (minute, rest) ← readTwo rest
    if 24 < hour ∨ 60 < minute then none
    let offset := (hour * 60 + minute) * 60
    if sign = '+' then return (offset, rest)
    if sign = '-' then return (-offset, rest)
    none
  | [] => none

def readMonth (cs : List Char) : Option (Int × List Char) := do
  let (month, rest) ← readTwo (← readMark '-' cs)
  if 1 ≤ month ∧ month ≤ 12 then return (month, rest)
  none

def readHour (cs : List Char) : Option (Int × List Char) := do
  let (hour, rest) ← readOneOrTwo (← readMark 'T' cs)
  if hour < 24 then return (hour, rest)
  none

def readSixty (cs : List Char) : Option (Int × List Char) := do
  let (n, rest) ← readTwo (← readMark ':' cs)
  if n < 60 then return (n, rest)
  none

def readDate (cs : List Char) : Option (Date × List Char) := do
  let (year, rest) ← readFour cs
  let (month, rest) ← readMonth rest
  let (day, rest) ← readTwo (← readMark '-' rest)
  if 1 ≤ day ∧ day ≤ daysInMonth year month then return (⟨year, month, day⟩, rest)
  none

def atTime (d : Date) (hour minute second nanos : Int) : Instant :=
  Instant.ofFields d.year d.month d.day hour minute second nanos

def whole (t : Instant) (rest : List Char) : Option Instant :=
  if rest.isEmpty then some t else none

/-- Date and time with a zone: the instant and the seconds east of UTC. -/
def readOffset (cs : List Char) : Option (Instant × Int) := do
  let (date, rest) ← readDate cs
  let (hour, rest) ← readHour rest
  let (minute, rest) ← readSixty rest
  let (second, rest) ← readSixty rest
  let (nanos, rest) := readFraction rest
  let (offset, rest) ← readZone rest
  let t ← whole (atTime date hour minute (second - offset) nanos) rest
  return (t, offset)

def readZoned (cs : List Char) : Option Instant :=
  (readOffset cs).map (·.1)

def readLocal (cs : List Char) : Option Instant := do
  let (date, rest) ← readDate cs
  let (hour, rest) ← readHour rest
  let (minute, rest) ← readSixty rest
  let (second, rest) ← readSixty rest
  let (nanos, rest) := readFraction rest
  whole (atTime date hour minute second nanos) rest

def readMinutes (cs : List Char) : Option Instant := do
  let (date, rest) ← readDate cs
  let (hour, rest) ← readHour rest
  let (minute, rest) ← readSixty rest
  whole (atTime date hour minute 0 0) rest

def readDay (cs : List Char) : Option Instant := do
  let (date, rest) ← readDate cs
  whole (atTime date 0 0 0 0) rest

def readYearMonth (cs : List Char) : Option Instant := do
  let (year, rest) ← readFour cs
  let (month, rest) ← readMonth rest
  whole (atTime ⟨year, month, 1⟩ 0 0 0 0) rest

def readYear (cs : List Char) : Option Instant := do
  let (year, rest) ← readFour cs
  whole (atTime ⟨year, 1, 1⟩ 0 0 0 0) rest

def readLongYear (cs : List Char) : Option (Int × List Char) :=
  let (minus, rest) := Decimal.takeSign cs
  let digits := rest.takeWhile isDigit
  let n : Int := Decimal.natOf digits
  let n := if minus then -n else n
  if digits.isEmpty then none
  else if Word.Holds n then some (n, rest.dropWhile isDigit)
  else none

def readShortFraction : List Char → Option (Int × List Char)
  | '.' :: rest =>
    let digits := rest.takeWhile isDigit
    if digits.isEmpty ∨ 9 < digits.length then none
    else some (nanosOf digits, rest.dropWhile isDigit)
  | cs => some (0, cs)

/-- The full form in UTC with a year of any length. Fields past their range carry over. -/
def readExtended (cs : List Char) : Option Instant := do
  let (year, rest) ← readLongYear cs
  let (month, rest) ← readTwo (← readMark '-' rest)
  let (day, rest) ← readTwo (← readMark '-' rest)
  let (hour, rest) ← readTwo (← readMark 'T' rest)
  let (minute, rest) ← readTwo (← readMark ':' rest)
  let (second, rest) ← readTwo (← readMark ':' rest)
  let (nanos, rest) ← readShortFraction rest
  let rest ← readMark 'Z' rest
  whole (Instant.ofFields year month day hour minute second nanos) rest

def readChars (cs : List Char) : Option Instant :=
  [readZoned, readLocal, readMinutes, readDay, readYearMonth, readYear, readExtended].findSome?
    fun read => read cs

end Timestamp

namespace Instant

def wire (t : Instant) : String :=
  String.ofList (Timestamp.write t)

def parse (s : String) : Except Error Instant :=
  match Timestamp.readChars (Text.trim s).toList with
  | some t => .ok t
  | none => .error (.unreadableTimestamp (Text.trim s))

end Instant

end TenantQuery
