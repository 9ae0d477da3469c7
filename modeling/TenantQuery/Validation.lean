import TenantQuery.PostAggregator.Basic

namespace TenantQuery

inductive Warning where
  | duplicateName (name : String)
  | emptyJunction (op : Junction)
  | notLowered (name type : String)
  | fewOperands (name : String) (count : Nat)
  | unresolved (name : String)
deriving DecidableEq

def Warning.message : Warning → String
  | .duplicateName name => "Duplicate output name " ++ Text.quote name
  | .emptyJunction .all => "Empty and filter - matches every row"
  | .emptyJunction .any => "Empty or filter - matches no row"
  | .notLowered name type =>
    "Convenience aggregator " ++ Text.quote name ++ " (" ++ type ++ ") was not lowered"
  | .fewOperands name count =>
    "Arithmetic " ++ Text.quote name ++ " has " ++ toString count ++
      " operands - at least two are required"
  | .unresolved name =>
    "Field access " ++ Text.quote name ++ " references no aggregator or earlier post-aggregator"

mutual

def Filter.warnings : Filter → List Warning
  | .test _ => []
  | .constant _ => []
  | .not f => f.warnings
  | .junction op none => [.emptyJunction op]
  | .junction op (some []) => [.emptyJunction op]
  | .junction _ (some (f :: fs)) => f.warnings ++ Filter.warningsOfAll fs

def Filter.warningsOfAll : List Filter → List Warning
  | [] => []
  | f :: fs => f.warnings ++ Filter.warningsOfAll fs

end

def Aggregator.warnings : Aggregator → List Warning
  | .filtered filter inner _ => filter.warnings ++ inner.warnings
  | a => if a.isConvenience then [.notLowered a.outputName a.typeName] else []

namespace PostAggregator

def accessWarnings (names : List String) (name : String) : List Warning :=
  if names.contains name then [] else [.unresolved name]

def arityWarnings (name : String) (count : Nat) : List Warning :=
  if count < 2 then [.fewOperands name count] else []

mutual

/-- `names` are the output names defined so far. -/
def warnings (names : List String) : PostAggregator → List Warning
  | .fieldAccess _ fieldName => accessWarnings names fieldName
  | .finalizingFieldAccess _ fieldName => accessWarnings names fieldName
  | .hyperUniqueCardinality _ fieldName => accessWarnings names fieldName
  | .arithmetic name _ none _ => arityWarnings name 0
  | .arithmetic name _ (some operands) _ =>
    arityWarnings name operands.length ++ warningsOfAll names operands
  | .extremum _ _ none => []
  | .extremum _ _ (some operands) => warningsOfAll names operands
  | .sketchEstimate _ operand => warnings names operand
  | .sketchSetOp _ _ _ none => []
  | .sketchSetOp _ _ _ (some operands) => warningsOfAll names operands
  | .sketchHistogram _ operand _ => warnings names operand
  | .zScore _ size1 success1 size2 success2 =>
    warnings names size1 ++ warnings names success1 ++ warnings names size2 ++
      warnings names success2
  | .pValue _ score => warnings names score
  | .constant _ _ => []
  | .expression _ _ _ => []

def warningsOfAll (names : List String) : List PostAggregator → List Warning
  | [] => []
  | p :: ps => warnings names p ++ warningsOfAll names ps

end

end PostAggregator

namespace Validation

/-- Output names defined so far and warnings given so far. -/
structure State where
  names : List String := []
  warnings : List Warning := []

def State.warn (s : State) (warnings : List Warning) : State :=
  { s with warnings := s.warnings ++ warnings }

def State.define (s : State) (name : String) : State :=
  if name = "" then s
  else if s.names.contains name then s.warn [.duplicateName name]
  else { s with names := name :: s.names }

def State.addAggregator (s : State) (a : Aggregator) : State :=
  (s.warn a.warnings).define a.outputName

def State.addPostAggregator (s : State) (p : PostAggregator) : State :=
  (s.warn (p.warnings s.names)).define p.outputName

end Validation

/-- All warnings: those about the filter, then about the aggregators, then about the
post-aggregators, each of which may refer to what comes before it. -/
def validate (filter : Option Filter) (aggregators : List Aggregator)
    (postAggregators : List PostAggregator) : List Warning :=
  let start : Validation.State := { warnings := (filter.map Filter.warnings).getD [] }
  let afterAggregators := aggregators.foldl Validation.State.addAggregator start
  (postAggregators.foldl Validation.State.addPostAggregator afterAggregators).warnings

end TenantQuery
