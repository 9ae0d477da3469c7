import TenantQuery.Aggregator.Basic

namespace TenantQuery

open Json (Member Slot)

inductive ArithmeticFunction where
  | add
  | subtract
  | multiply
  -- Division in which anything over zero is zero.
  | divide
  -- Division as floating point has it.
  | quotient
deriving DecidableEq

namespace ArithmeticFunction

def symbol : ArithmeticFunction → String
  | .add => "+"
  | .subtract => "-"
  | .multiply => "*"
  | .divide => "/"
  | .quotient => "quotient"

def ofSymbol? (s : String) : Option ArithmeticFunction :=
  [add, subtract, multiply, divide, quotient].find? fun f => f.symbol = s

end ArithmeticFunction

inductive SetOperation where
  | union
  | intersect
  | not
deriving DecidableEq

namespace SetOperation

def name : SetOperation → String
  | .union => "UNION"
  | .intersect => "INTERSECT"
  | .not => "NOT"

def ofName? (s : String) : Option SetOperation :=
  [union, intersect, not].find? fun o => o.name = s

end SetOperation

inductive ExtremumKind where
  | doubleGreatest
  | longGreatest
  | doubleLeast
  | longLeast
  | doubleMax
deriving DecidableEq

namespace ExtremumKind

def name : ExtremumKind → String
  | .doubleGreatest => "doubleGreatest"
  | .longGreatest => "longGreatest"
  | .doubleLeast => "doubleLeast"
  | .longLeast => "longLeast"
  | .doubleMax => "doubleMax"

def every : List ExtremumKind :=
  [.doubleGreatest, .longGreatest, .doubleLeast, .longLeast, .doubleMax]

def isLong : ExtremumKind → Bool
  | .longGreatest | .longLeast => true
  | _ => false

def isGreatest : ExtremumKind → Bool
  | .doubleGreatest | .longGreatest | .doubleMax => true
  | _ => false

end ExtremumKind

inductive PostAggregator where
  | arithmetic (name : String) (fn : ArithmeticFunction)
      (operands : Option (List PostAggregator)) (ordering : Option String)
  | fieldAccess (name : Option String) (fieldName : String)
  | finalizingFieldAccess (name : Option String) (fieldName : String)
  | constant (name : String) (value : Double)
  | extremum (kind : ExtremumKind) (name : String) (operands : Option (List PostAggregator))
  | expression (name source : String) (ordering : Option String)
  | hyperUniqueCardinality (name fieldName : String)
  | sketchEstimate (name : String) (operand : PostAggregator)
  | sketchSetOp (name : Option String) (operation : SetOperation) (size : Option Int)
      (operands : Option (List PostAggregator))
  | sketchHistogram (name : String) (operand : PostAggregator) (bins : Bins)
  | zScore (name : String) (size1 success1 size2 success2 : PostAggregator)
  | pValue (name : String) (score : PostAggregator)

namespace PostAggregator

instance : Inhabited PostAggregator := ⟨.constant "" Double.zero⟩

def access (fieldName : String) : PostAggregator :=
  .fieldAccess none fieldName

def finalizingAccess (fieldName : String) : PostAggregator :=
  .finalizingFieldAccess none fieldName

def typeName : PostAggregator → String
  | .arithmetic _ _ _ _ => "arithmetic"
  | .fieldAccess _ _ => "fieldAccess"
  | .finalizingFieldAccess _ _ => "finalizingFieldAccess"
  | .constant _ _ => "constant"
  | .extremum kind _ _ => kind.name
  | .expression _ _ _ => "expression"
  | .hyperUniqueCardinality _ _ => "hyperUniqueCardinality"
  | .sketchEstimate _ _ => "thetaSketchEstimate"
  | .sketchSetOp _ _ _ _ => "thetaSketchSetOp"
  | .sketchHistogram _ _ _ => "quantilesDoublesSketchToHistogram"
  | .zScore _ _ _ _ _ => "zscore2sample"
  | .pValue _ _ => "pvalue2tailedZtest"

def outputName : PostAggregator → String
  | .arithmetic name _ _ _ => name
  | .fieldAccess name _ => name.getD ""
  | .finalizingFieldAccess name _ => name.getD ""
  | .constant name _ => name
  | .extremum _ name _ => name
  | .expression name _ _ => name
  | .hyperUniqueCardinality name _ => name
  | .sketchEstimate name _ => name
  | .sketchSetOp name _ _ _ => name.getD ""
  | .sketchHistogram name _ _ => name
  | .zScore name _ _ _ _ => name
  | .pValue name _ => name

mutual

def encode : PostAggregator → Json
  | .arithmetic name fn operands ordering =>
    Json.tagged "arithmetic"
      ([("name", .string name), ("fn", .string fn.symbol), ("fields", encodeOperands operands)] ++
       Json.ifSome "ordering" .string ordering)
  | .fieldAccess name fieldName =>
    Json.tagged "fieldAccess"
      (Json.ifSome "name" .string name ++ [("fieldName", .string fieldName)])
  | .finalizingFieldAccess name fieldName =>
    Json.tagged "finalizingFieldAccess"
      (Json.ifSome "name" .string name ++ [("fieldName", .string fieldName)])
  | .constant name value =>
    Json.tagged "constant" [("name", .string name), ("value", Json.ofDouble value)]
  | .extremum kind name operands =>
    Json.tagged kind.name [("name", .string name), ("fields", encodeOperands operands)]
  | .expression name source ordering =>
    Json.tagged "expression"
      ([("name", .string name), ("expression", .string source)] ++
       Json.ifSome "ordering" .string ordering)
  | .hyperUniqueCardinality name fieldName =>
    Json.tagged "hyperUniqueCardinality" (Aggregator.columnMembers name fieldName)
  | .sketchEstimate name operand =>
    Json.tagged "thetaSketchEstimate" [("name", .string name), ("field", encode operand)]
  | .sketchSetOp name operation size operands =>
    Json.tagged "thetaSketchSetOp"
      (Json.ifSome "name" .string name ++ [("func", .string operation.name)] ++
       Json.ifSome "size" Json.ofInt size ++ [("fields", encodeOperands operands)])
  | .sketchHistogram name operand bins =>
    Json.tagged "quantilesDoublesSketchToHistogram"
      ([("name", .string name), ("field", encode operand)] ++ Aggregator.binMembers bins)
  | .zScore name size1 success1 size2 success2 =>
    Json.tagged "zscore2sample"
      [("name", .string name), ("sample1Size", encode size1), ("successCount1", encode success1),
       ("sample2Size", encode size2), ("successCount2", encode success2)]
  | .pValue name score =>
    Json.tagged "pvalue2tailedZtest" [("name", .string name), ("zScore", encode score)]

def encodeOperands : Option (List PostAggregator) → Json
  | none => .null
  | some operands => .array (encodeAll operands)

def encodeAll : List PostAggregator → List Json
  | [] => []
  | p :: ps => encode p :: encodeAll ps

end

/-- The members of every form with operands, whichever of them a form has. -/
structure Wire where
  name : String := ""
  optionalName : Option String := none
  fn : String := ""
  size : Option Int := none
  operands : Option (List Json) := none
  ordering : Option String := none

def arithmeticFields : List (Member Wire) :=
  [.of "name" Slot.text ({ · with name := · }),
   .of "fn" Slot.text ({ · with fn := · }),
   .of "fields" Slot.rawItems ({ · with operands := · }),
   .of "ordering" optionalText ({ · with ordering := · })]

def extremumFields : List (Member Wire) :=
  [.of "name" Slot.text ({ · with name := · }),
   .of "fields" Slot.rawItems ({ · with operands := · })]

def setOpFields : List (Member Wire) :=
  [.of "name" optionalText ({ · with optionalName := · }),
   .of "func" Slot.text ({ · with fn := · }),
   .of "size" optionalInt ({ · with size := · }),
   .of "fields" Slot.rawItems ({ · with operands := · })]

def accessFields : List (Member (Option String × String)) :=
  [.of "name" optionalText (fun s name => (name, s.2)),
   .of "fieldName" Slot.text (fun s fieldName => (s.1, fieldName))]

def constantFields : List (Member (String × Double)) :=
  [.of "name" Slot.text (fun s name => (name, s.2)),
   .of "value" Slot.double (fun s value => (s.1, value))]

structure ExpressionWire where
  name : String := ""
  expression : String := ""
  ordering : Option String := none

def expressionFields : List (Member ExpressionWire) :=
  [.of "name" Slot.text ({ · with name := · }),
   .of "expression" Slot.text ({ · with expression := · }),
   .of "ordering" optionalText ({ · with ordering := · })]

structure SketchWire where
  name : String := ""
  operand : Option Json := none
  bins : Bins := {}

def estimateFields : List (Member SketchWire) :=
  [.of "name" Slot.text ({ · with name := · }),
   .of "field" Slot.raw ({ · with operand := · })]

def histogramFields : List (Member SketchWire) :=
  estimateFields ++ Aggregator.binFields.map (Member.lift (·.bins) ({ · with bins := · }))

structure SamplesWire where
  name : String := ""
  size1 : Option Json := none
  success1 : Option Json := none
  size2 : Option Json := none
  success2 : Option Json := none

def samplesFields : List (Member SamplesWire) :=
  [.of "name" Slot.text ({ · with name := · }),
   .of "sample1Size" Slot.raw ({ · with size1 := · }),
   .of "successCount1" Slot.raw ({ · with success1 := · }),
   .of "sample2Size" Slot.raw ({ · with size2 := · }),
   .of "successCount2" Slot.raw ({ · with success2 := · })]

def pValueFields : List (Member (String × Option Json)) :=
  [.of "name" Slot.text (fun s name => (name, s.2)),
   .of "zScore" Slot.raw (fun s score => (s.1, score))]

abbrev Inner := Option Json → Except Error PostAggregator

def readArithmetic (inner : Inner) (j : Json) : Except Error PostAggregator := do
  let wire ← Json.readRecord arithmeticFields {} j
  -- The function is checked before the operands are read.
  match ArithmeticFunction.ofSymbol? wire.fn with
  | none => throw (.unknownFunction wire.fn)
  | some fn => return .arithmetic wire.name fn (← Json.readNodes inner wire.operands) wire.ordering

def readExtremum (inner : Inner) (kind : ExtremumKind) (j : Json) :
    Except Error PostAggregator := do
  let wire ← Json.readRecord extremumFields {} j
  return .extremum kind wire.name (← Json.readNodes inner wire.operands)

def readSetOp (inner : Inner) (j : Json) : Except Error PostAggregator := do
  let wire ← Json.readRecord setOpFields {} j
  -- The operation is checked before the operands are read.
  match SetOperation.ofName? wire.fn with
  | none => throw (.unknownSetOperation wire.fn)
  | some operation =>
    return .sketchSetOp wire.optionalName operation wire.size (← Json.readNodes inner wire.operands)

def readEstimate (inner : Inner) (j : Json) : Except Error PostAggregator := do
  let wire ← Json.readRecord estimateFields {} j
  return .sketchEstimate wire.name (← inner wire.operand)

def readHistogram (inner : Inner) (j : Json) : Except Error PostAggregator := do
  let wire ← Json.readRecord histogramFields {} j
  return .sketchHistogram wire.name (← inner wire.operand) wire.bins

def readSamples (inner : Inner) (j : Json) : Except Error PostAggregator := do
  let wire ← Json.readRecord samplesFields {} j
  let size1 ← inner wire.size1
  let success1 ← inner wire.success1
  let size2 ← inner wire.size2
  return .zScore wire.name size1 success1 size2 (← inner wire.success2)

def readPValue (inner : Inner) (j : Json) : Except Error PostAggregator := do
  let wire ← Json.readRecord pValueFields ("", none) j
  return .pValue wire.1 (← inner wire.2)

def forms (inner : Inner) : Json.Forms PostAggregator :=
  ExtremumKind.every.map (fun kind => (kind.name, readExtremum inner kind)) ++
  [("arithmetic", readArithmetic inner),
   ("fieldAccess", fun j =>
      (Json.readRecord accessFields (none, "") j).map fun w => .fieldAccess w.1 w.2),
   ("finalizingFieldAccess", fun j =>
      (Json.readRecord accessFields (none, "") j).map fun w => .finalizingFieldAccess w.1 w.2),
   ("constant", fun j =>
      (Json.readRecord constantFields ("", Double.zero) j).map fun w => .constant w.1 w.2),
   ("expression", fun j =>
      (Json.readRecord expressionFields {} j).map fun w =>
        .expression w.name w.expression w.ordering),
   ("hyperUniqueCardinality", fun j =>
      (Json.readRecord Aggregator.columnFields {} j).map fun c =>
        .hyperUniqueCardinality c.name c.fieldName),
   ("thetaSketchEstimate", readEstimate inner),
   ("thetaSketchSetOp", readSetOp inner),
   ("quantilesDoublesSketchToHistogram", readHistogram inner),
   ("zscore2sample", readSamples inner),
   ("pvalue2tailedZtest", readPValue inner)]

/-- Reads a post-aggregator that nests less than `fuel` deep. -/
def readWithin : (fuel : Nat) → Option Json → Except Error PostAggregator
  | 0, _ => .error .malformed
  | fuel + 1, raw => Json.readNode "postAggregator" (forms (readWithin fuel)) raw

def read (raw : Option Json) : Except Error PostAggregator :=
  readWithin (Json.depthOf raw + 1) raw

def parse (text : String) : Except Error PostAggregator :=
  Json.parseNode "postAggregator" read text

end PostAggregator

end TenantQuery
