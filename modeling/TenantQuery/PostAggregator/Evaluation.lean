import TenantQuery.PostAggregator.Basic
import TenantQuery.PostAggregator.Statistics

namespace TenantQuery

structure Row where
  columns : List (String × Float)

namespace Row

def get? (row : Row) (name : String) : Option Float :=
  row.columns.lookup name

def set (row : Row) (name : String) (value : Float) : Row :=
  ⟨Json.insertSorted name value row.columns⟩

def ofList (columns : List (String × Float)) : Row :=
  columns.foldl (fun row c => row.set c.1 c.2) ⟨[]⟩

end Row

namespace PostAggregator

def column (row : Row) (name : String) : Except CompileError Float :=
  match row.get? name with
  | some x => .ok x
  | none => .error (.noColumn name)

/-- Plus infinity wins over everything, then what is no number, then the larger; zero beats minus
zero. -/
def greater (x y : Float) : Float :=
  if (x.isInf && 0 < x) || (y.isInf && 0 < y) then Float.ofBits 0x7ff0000000000000
  else if x.isNaN || y.isNaN then Float.ofBits 0x7ff8000000000001
  else if x == 0 && y == 0 then (if Double.negative (.ofFloat x) then y else x)
  else if y < x then x
  else y

def lesser (x y : Float) : Float :=
  if (x.isInf && x < 0) || (y.isInf && y < 0) then Float.ofBits 0xfff0000000000000
  else if x.isNaN || y.isNaN then Float.ofBits 0x7ff8000000000001
  else if x == 0 && y == 0 then (if Double.negative (.ofFloat x) then x else y)
  else if x < y then x
  else y

def truncate (x : Float) : Float :=
  if x < 0 then x.ceil else x.floor

end PostAggregator

def ArithmeticFunction.apply (fn : ArithmeticFunction) (x y : Float) : Float :=
  match fn with
  | .add => x + y
  | .subtract => x - y
  | .multiply => x * y
  | .divide => if y == 0 then 0 else x / y
  | .quotient => x / y

namespace ExtremumKind

def adjust (kind : ExtremumKind) (x : Float) : Float :=
  if kind.isLong then PostAggregator.truncate x else x

def choose (kind : ExtremumKind) (x y : Float) : Float :=
  if kind.isGreatest then PostAggregator.greater x y else PostAggregator.lesser x y

end ExtremumKind

namespace PostAggregator

def foldValues (combine : Float → Float → Float) : List Float → Option Float
  | [] => none
  | x :: xs => some (xs.foldl combine x)

def folded (what name : String) (combine : Float → Float → Float) (values : List Float) :
    Except CompileError Float :=
  match foldValues combine values with
  | some x => .ok x
  | none => .error (.noOperands what name)

mutual

/-- Operands are evaluated from the left. Sketches and expressions need the engine. -/
def evaluate (row : Row) : PostAggregator → Except CompileError Float
  | .constant _ value => .ok value.toFloat
  | .fieldAccess _ fieldName => column row fieldName
  | .finalizingFieldAccess _ fieldName => column row fieldName
  | .hyperUniqueCardinality _ fieldName => column row fieldName
  | .arithmetic name _ none _ => .error (.noOperands "arithmetic" name)
  | .arithmetic name fn (some operands) _ => do
    folded "arithmetic" name fn.apply (← evaluateEach row operands)
  | .extremum kind name none => .error (.noOperands kind.name name)
  | .extremum kind name (some operands) => do
    folded kind.name name kind.choose ((← evaluateEach row operands).map kind.adjust)
  | .zScore _ size1 success1 size2 success2 => do
    let n1 ← evaluate row size1
    let k1 ← evaluate row success1
    let n2 ← evaluate row size2
    let k2 ← evaluate row success2
    return Statistics.zScore n1 k1 n2 k2
  | .pValue _ score => do return Statistics.pValue (← evaluate row score)
  | .expression _ _ _ => .error (.notLocal "expression")
  | .sketchEstimate _ _ => .error (.notLocal "thetaSketchEstimate")
  | .sketchSetOp _ _ _ _ => .error (.notLocal "thetaSketchSetOp")
  | .sketchHistogram _ _ _ => .error (.notLocal "quantilesDoublesSketchToHistogram")

def evaluateEach (row : Row) : List PostAggregator → Except CompileError (List Float)
  | [] => .ok []
  | p :: ps => do
    let x ← evaluate row p
    return x :: (← evaluateEach row ps)

end

/-- Evaluates in order. A value under a name is there for the ones after it. -/
def evaluateAll : Row → List PostAggregator → Except CompileError Row
  | row, [] => .ok row
  | row, p :: ps => do
    let x ← evaluate row p
    evaluateAll (if p.outputName = "" then row else row.set p.outputName x) ps

end PostAggregator

end TenantQuery
