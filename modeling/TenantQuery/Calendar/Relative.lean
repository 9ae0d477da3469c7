import TenantQuery.Calendar.Interval

namespace TenantQuery

inductive Position where
  | beginning
  | ending
  -- Taken as the beginning.
  | unset
deriving DecidableEq, Inhabited

namespace Position

def name : Position → String
  | .beginning => "beginning"
  | .ending => "end"
  | .unset => ""

def ofName? (s : String) : Option Position :=
  [beginning, ending].find? fun p => p.name = s

def read (j : Json) : Except Error Position :=
  Json.readName "position" ofName? j

end Position

structure RelativeDate where
  component : Component := .unset
  offset : Int := 0
  position : Position := .unset
deriving DecidableEq

namespace RelativeDate

def fields : List (Json.Member RelativeDate) :=
  [.of "component" (Json.Slot.fresh Component.read) ({ · with component := · }),
   .of "offset" Json.Slot.int ({ · with offset := · }),
   .of "position" (Json.Slot.fresh Position.read) ({ · with position := · })]

def encode (d : RelativeDate) : Json :=
  .object [("component", d.component.encode), ("offset", .ofInt d.offset),
    ("position", .string d.position.name)]

def resolve (d : RelativeDate) (now : Instant) : Instant :=
  let shifted := now.add d.component d.offset
  match d.position with
  | .ending => shifted.endOf d.component
  | _ => shifted.beginningOf d.component

end RelativeDate

structure RelativeInterval where
  start : RelativeDate := {}
  stop : RelativeDate := {}
deriving DecidableEq

namespace RelativeInterval

def fields : List (Json.Member RelativeInterval) :=
  [.of "beginningDate" (Json.Slot.record RelativeDate.fields {}) ({ · with start := · }),
   .of "endDate" (Json.Slot.record RelativeDate.fields {}) ({ · with stop := · })]

def slot : Json.Slot (Option (List RelativeInterval)) :=
  Json.Slot.list (Json.Slot.record fields {})

def encode (r : RelativeInterval) : Json :=
  .object [("beginningDate", r.start.encode), ("endDate", r.stop.encode)]

def resolve (r : RelativeInterval) (now : Instant) : Interval :=
  ⟨r.start.resolve now, r.stop.resolve now⟩

end RelativeInterval

end TenantQuery
