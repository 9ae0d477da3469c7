import TenantQuery.Filter.Predicate

namespace TenantQuery

open Json (Member Slot)

structure Context where
  timeout : Option String := none
  priority : Option Int := none
  timestamp : Option Int := none
  cacheValidityDuration : Option Int := none
  skipEmptyBuckets : Option Bool := none
  grandTotal : Option Bool := none
  useCache : Option Bool := none
  populateCache : Option Bool := none
deriving DecidableEq

namespace Context

def fields : List (Member Context) :=
  [.of "timeout" optionalText ({ · with timeout := · }),
   .of "priority" optionalInt ({ · with priority := · }),
   .of "timestamp" optionalInt ({ · with timestamp := · }),
   .of "cacheValidityDuration" optionalInt
     ({ · with cacheValidityDuration := · }),
   .of "skipEmptyBuckets" optionalFlag ({ · with skipEmptyBuckets := · }),
   .of "grandTotal" optionalFlag ({ · with grandTotal := · }),
   .of "useCache" optionalFlag ({ · with useCache := · }),
   .of "populateCache" optionalFlag ({ · with populateCache := · })]

def encode (c : Context) : Json :=
  .object (Json.ifSome "timeout" .string c.timeout ++ Json.ifSome "priority" Json.ofInt c.priority ++
    Json.ifSome "timestamp" Json.ofInt c.timestamp ++
    Json.ifSome "cacheValidityDuration" Json.ofInt c.cacheValidityDuration ++
    Json.ifSome "skipEmptyBuckets" .bool c.skipEmptyBuckets ++
    Json.ifSome "grandTotal" .bool c.grandTotal ++ Json.ifSome "useCache" .bool c.useCache ++
    Json.ifSome "populateCache" .bool c.populateCache)

def merge (c : Option Context) (defaults : Context) : Context :=
  match c with
  | none => defaults
  | some c =>
    { timeout := c.timeout <|> defaults.timeout
      priority := c.priority <|> defaults.priority
      timestamp := c.timestamp <|> defaults.timestamp
      cacheValidityDuration := c.cacheValidityDuration <|> defaults.cacheValidityDuration
      skipEmptyBuckets := c.skipEmptyBuckets <|> defaults.skipEmptyBuckets
      grandTotal := c.grandTotal <|> defaults.grandTotal
      useCache := c.useCache <|> defaults.useCache
      populateCache := c.populateCache <|> defaults.populateCache }

end Context

end TenantQuery
