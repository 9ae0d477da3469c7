import TenantQuery.Calendar.Component

namespace TenantQuery

inductive Granularity where
  | all
  | none
  | second
  | minute
  | fifteenMinute
  | thirtyMinute
  | hour
  | day
  | week
  | month
  | quarter
  | year
  -- A name that documents do not admit; the empty one stands for no granularity.
  | other (name : String)
deriving DecidableEq, Inhabited

namespace Granularity

def name : Granularity → String
  | .all => "all"
  | .none => "none"
  | .second => "second"
  | .minute => "minute"
  | .fifteenMinute => "fifteen_minute"
  | .thirtyMinute => "thirty_minute"
  | .hour => "hour"
  | .day => "day"
  | .week => "week"
  | .month => "month"
  | .quarter => "quarter"
  | .year => "year"
  | .other name => name

def unset : Granularity := .other ""

def known : List Granularity :=
  [.all, .none, .second, .minute, .fifteenMinute, .thirtyMinute, .hour, .day, .week, .month,
   .quarter, .year]

def ofName? (s : String) : Option Granularity :=
  known.find? fun g => g.name = s

def ofName (s : String) : Granularity :=
  (ofName? s).getD (.other s)

def read (j : Json) : Except Error Granularity :=
  Json.readName "granularity" ofName? j

def encode (g : Granularity) : Json :=
  .string g.name

/-- The unit of the granularities that time can be cut into. -/
def component? : Granularity → Option Component
  | .hour => some .hour
  | .day => some .day
  | .month => some .month
  | .year => some .year
  | _ => Option.none

end Granularity

end TenantQuery
