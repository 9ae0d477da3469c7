import TenantQuery.Query.Basic

namespace TenantQuery.Expansion

def defaultUserField : String := "clientUser"

structure Options where
  -- The dimension that tells users apart; empty for the usual one.
  userField : String
  now : Instant

def Options.userSketch (options : Options) (name : String) : Aggregator :=
  .thetaSketch {
    name
    fieldName := if options.userField = "" then defaultUserField else options.userField }

def Options.filteredSketch (options : Options) (filter : Filter) (name : String) : Aggregator :=
  .filtered filter (options.userSketch name) none

def intersection (sketches : List String) : PostAggregator :=
  .sketchSetOp none .intersect none (some (sketches.map PostAggregator.access))

end TenantQuery.Expansion
