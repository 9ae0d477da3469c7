import TenantQuery.Calendar.Timestamp
import TenantQuery.Json.Record

namespace TenantQuery

structure ZonedTime where
  instant : Instant
  -- Seconds east of UTC, a whole number of minutes.
  offset : Int
deriving DecidableEq

namespace ZonedTime

def zero : ZonedTime :=
  ⟨Instant.ofFields 1 1 1 0 0 0 0, 0⟩

def parse? (s : String) : Option ZonedTime :=
  (Timestamp.readOffset s.toList).map fun (instant, offset) => ⟨instant, offset⟩

def fractionText (nanos : Nat) : List Char :=
  let digits := ((Timestamp.padded 9 nanos).reverse.dropWhile (· == '0')).reverse
  if digits.isEmpty then [] else '.' :: digits

def zoneText (offset : Int) : List Char :=
  if offset = 0 then ['Z']
  else
    let minutes := offset.natAbs / 60
    (if offset < 0 then '-' else '+') ::
      (Timestamp.padded 2 (minutes / 60) ++ ':' :: Timestamp.padded 2 (minutes % 60))

def text (t : ZonedTime) : String :=
  let here : Instant := ⟨t.instant.nanos + t.offset * Calendar.nanosPerSecond⟩
  String.ofList (Timestamp.dateText here.date ++ 'T' ::
    (Timestamp.clockText (here.timeOfDay / Calendar.nanosPerSecond) ++
      fractionText here.subsecond.toNat ++ zoneText t.offset))

/-- A zone a whole day away cannot be written. -/
def encode (t : ZonedTime) : Except Error Json :=
  if 24 * 3600 ≤ t.offset.natAbs then .error .unencodable else .ok (.string t.text)

def read : Json → Except Error ZonedTime
  | .string s =>
    match parse? s with
    | some t => .ok t
    | none => .error .badInstant
  | _ => .error .mistyped

def slot : Json.Slot ZonedTime :=
  Json.Slot.kept zero read

end ZonedTime

end TenantQuery
