import TenantQuery.Filter.Predicate

namespace TenantQuery

inductive Junction where
  | all
  | any
deriving DecidableEq

namespace Junction

def typeName : Junction → String
  | .all => "and"
  | .any => "or"

/-- What a junction of nothing matches, which is also the operand that changes nothing. -/
def unit : Junction → Bool
  | .all => true
  | .any => false

end Junction

inductive Filter where
  | test (p : Predicate)
  -- The list of operands may be absent, which is written differently from an empty one.
  | junction (op : Junction) (operands : Option (List Filter))
  | not (operand : Filter)
  | constant (value : Bool)

namespace Filter

instance : Inhabited Filter := ⟨.constant true⟩

def selector (dimension value : String) : Filter :=
  .test (.selector ⟨dimension, value⟩)

def junctionOf (op : Junction) (operands : List Filter) : Filter :=
  .junction op (some operands)

def typeName : Filter → String
  | .test p => p.typeName
  | .junction op _ => op.typeName
  | .not _ => "not"
  | .constant true => "true"
  | .constant false => "false"

mutual

def encode : Filter → Json
  | .test p => p.encode
  | .junction op none => Json.tagged op.typeName [("fields", .null)]
  | .junction op (some operands) =>
    Json.tagged op.typeName [("fields", .array (encodeAll operands))]
  | .not operand => Json.tagged "not" [("field", encode operand)]
  | .constant true => Json.tagged "true" []
  | .constant false => Json.tagged "false" []

def encodeAll : List Filter → List Json
  | [] => []
  | f :: fs => encode f :: encodeAll fs

end

def operandsFields : List (Json.Member (Option (List Json))) :=
  [.of "fields" Json.Slot.rawItems (fun _ s => s)]

def operandFields : List (Json.Member (Option Json)) :=
  [.of "field" Json.Slot.raw (fun _ s => s)]

def forms (inner : Option Json → Except Error Filter) : Json.Forms Filter :=
  Predicate.forms.map (fun (type, read) => (type, fun j => (read j).map Filter.test)) ++
  [("and", fun j => do
      return .junction .all (← Json.readNodes inner (← Json.readRecord operandsFields none j))),
   ("or", fun j => do
      return .junction .any (← Json.readNodes inner (← Json.readRecord operandsFields none j))),
   ("not", fun j => do return .not (← inner (← Json.readRecord operandFields none j))),
   ("true", fun j => (Json.readRecord ([] : List (Json.Member Unit)) () j).map fun _ => .constant true),
   ("false", fun j => (Json.readRecord ([] : List (Json.Member Unit)) () j).map fun _ => .constant false)]

/-- Reads a filter that nests less than `fuel` deep. -/
def readWithin : (fuel : Nat) → Option Json → Except Error Filter
  | 0, _ => .error .malformed
  | fuel + 1, raw => Json.readNode "filter" (forms (readWithin fuel)) raw

def read (raw : Option Json) : Except Error Filter :=
  readWithin (Json.depthOf raw + 1) raw

def readOptional (raw : Option Json) : Except Error (Option Filter) :=
  Json.readOptionalNode read raw

def parse (text : String) : Except Error Filter :=
  Json.parseNode "filter" read text

/-- A blank text and null are no filter. -/
def parseOptional (text : String) : Except Error (Option Filter) :=
  let trimmed := Text.trim text
  if trimmed = "" ∨ trimmed = "null" then .ok none else (parse text).map some

end Filter

end TenantQuery
