import TenantQuery.Calendar.Interval
import TenantQuery.Json.Tagged

namespace TenantQuery

structure Selector where
  dimension : String := ""
  value : String := ""
deriving DecidableEq

structure ColumnComparison where
  dimensions : Option (List String) := none
deriving DecidableEq

structure Regex where
  dimension : String := ""
  pattern : String := ""
deriving DecidableEq

structure SearchQuery where
  type : String := ""
  value : String := ""
  caseSensitive : Option Bool := none
deriving DecidableEq

structure Search where
  dimension : String := ""
  query : SearchQuery := {}
deriving DecidableEq

structure Membership where
  dimension : String := ""
  values : Option (List String) := none
deriving DecidableEq

structure Like where
  dimension : String := ""
  pattern : String := ""
  escape : Option String := none
deriving DecidableEq

structure Bound where
  dimension : String := ""
  lower : Option String := none
  upper : Option String := none
  lowerStrict : Option Bool := none
  upperStrict : Option Bool := none
  ordering : Option String := none
deriving DecidableEq

/-- The dimension, read as a time, falls into one of the intervals. -/
structure During where
  dimension : String := ""
  intervals : Option (List Interval) := none
deriving DecidableEq

inductive Predicate where
  | selector (p : Selector)
  | columnComparison (p : ColumnComparison)
  | regex (p : Regex)
  | search (p : Search)
  | membership (p : Membership)
  | like (p : Like)
  | bound (p : Bound)
  | during (p : During)
deriving DecidableEq

open Json (Member Slot)

def optionalText : Slot (Option String) := Slot.optional Slot.text

def optionalFlag : Slot (Option Bool) := Slot.optional Slot.flag

def optionalInt : Slot (Option Int) := Slot.optional Slot.int

def texts : Slot (Option (List String)) := Slot.list Slot.text

def doubles : Slot (Option (List Double)) := Slot.list Slot.double

def Selector.fields : List (Member Selector) :=
  [.of "dimension" Slot.text ({ · with dimension := · }),
   .of "value" Slot.text ({ · with value := · })]

def ColumnComparison.fields : List (Member ColumnComparison) :=
  [.of "dimensions" texts ({ · with dimensions := · })]

def Regex.fields : List (Member Regex) :=
  [.of "dimension" Slot.text ({ · with dimension := · }),
   .of "pattern" Slot.text ({ · with pattern := · })]

def SearchQuery.fields : List (Member SearchQuery) :=
  [.of "type" Slot.text ({ · with type := · }),
   .of "value" Slot.text ({ · with value := · }),
   .of "caseSensitive" optionalFlag ({ · with caseSensitive := · })]

def Search.fields : List (Member Search) :=
  [.of "dimension" Slot.text ({ · with dimension := · }),
   .of "query" (Slot.record SearchQuery.fields {}) ({ · with query := · })]

def Membership.fields : List (Member Membership) :=
  [.of "dimension" Slot.text ({ · with dimension := · }),
   .of "values" texts ({ · with values := · })]

def Like.fields : List (Member Like) :=
  [.of "dimension" Slot.text ({ · with dimension := · }),
   .of "pattern" Slot.text ({ · with pattern := · }),
   .of "escape" optionalText ({ · with escape := · })]

def Bound.fields : List (Member Bound) :=
  [.of "dimension" Slot.text ({ · with dimension := · }),
   .of "lower" optionalText ({ · with lower := · }),
   .of "upper" optionalText ({ · with upper := · }),
   .of "lowerStrict" optionalFlag ({ · with lowerStrict := · }),
   .of "upperStrict" optionalFlag ({ · with upperStrict := · }),
   .of "ordering" optionalText ({ · with ordering := · })]

def During.fields : List (Member During) :=
  [.of "dimension" Slot.text ({ · with dimension := · }),
   .of "intervals" Interval.slot ({ · with intervals := · })]

namespace Predicate

def typeName : Predicate → String
  | .selector _ => "selector"
  | .columnComparison _ => "columnComparison"
  | .regex _ => "regex"
  | .search _ => "search"
  | .membership _ => "in"
  | .like _ => "like"
  | .bound _ => "bound"
  | .during _ => "interval"

def members : Predicate → List (String × Json)
  | .selector p => [("dimension", .string p.dimension), ("value", .string p.value)]
  | .columnComparison p => [("dimensions", Json.listOrNull .string p.dimensions)]
  | .regex p => [("dimension", .string p.dimension), ("pattern", .string p.pattern)]
  | .search p =>
    [("dimension", .string p.dimension),
     ("query", .object ([("type", .string p.query.type), ("value", .string p.query.value)] ++
        Json.ifSome "caseSensitive" .bool p.query.caseSensitive))]
  | .membership p =>
    [("dimension", .string p.dimension), ("values", Json.listOrNull .string p.values)]
  | .like p =>
    [("dimension", .string p.dimension), ("pattern", .string p.pattern)] ++
      Json.ifSome "escape" .string p.escape
  | .bound p =>
    ("dimension", .string p.dimension) ::
      (Json.ifSome "lower" .string p.lower ++ Json.ifSome "upper" .string p.upper ++
       Json.ifSome "lowerStrict" .bool p.lowerStrict ++
       Json.ifSome "upperStrict" .bool p.upperStrict ++ Json.ifSome "ordering" .string p.ordering)
  | .during p =>
    [("dimension", .string p.dimension), ("intervals", Json.listOrNull Interval.encode p.intervals)]

def encode (p : Predicate) : Json :=
  Json.tagged p.typeName p.members

def forms : Json.Forms Predicate :=
  [("selector", fun j => (Json.readRecord Selector.fields {} j).map .selector),
   ("columnComparison", fun j =>
      (Json.readRecord ColumnComparison.fields {} j).map .columnComparison),
   ("regex", fun j => (Json.readRecord Regex.fields {} j).map .regex),
   ("search", fun j => (Json.readRecord Search.fields {} j).map .search),
   ("in", fun j => (Json.readRecord Membership.fields {} j).map .membership),
   ("like", fun j => (Json.readRecord Like.fields {} j).map .like),
   ("bound", fun j => (Json.readRecord Bound.fields {} j).map .bound),
   ("interval", fun j => (Json.readRecord During.fields {} j).map .during)]

end Predicate

end TenantQuery
