import TenantQuery.Json.Reader
import TenantQuery.Json.Writer
import TenantQuery.Number.Layout
import TenantQuery.Error

namespace TenantQuery

/-- An evaluator of CUE. Values that are not concrete have no JSON text. -/
class CueEvaluator where
  Value : Type
  compile : List UInt8 → Option Value
  lookup : Value → String → Option Value
  marshal : Value → Option String

inductive Constraint where
  | type (name : String)
  | value (scalar : Json)
  | list (items : List Constraint)
  | struct (members : List (String × Constraint))
deriving Inhabited

namespace Constraint

def typeNames : List String :=
  ["int", "string", "bool", "number", "float", "bytes", "_"]

def isLetter (c : Char) : Bool :=
  c.isAlphanum || c == '_'

def readWord (cs : List Char) : Option (Constraint × List Char) :=
  let word := String.ofList (cs.takeWhile isLetter)
  let rest := cs.dropWhile isLetter
  match word with
  | "true" => some (.value (.bool true), rest)
  | "false" => some (.value (.bool false), rest)
  | "null" => some (.value .null, rest)
  | _ => if typeNames.contains word then some (.type word, rest) else none

def paired : List Json.Mark → Bool
  | [] => true
  | .plain _ :: rest => paired rest
  | .unit a :: .unit b :: rest =>
    if Json.isHigh a then Json.isLow b && paired rest
    else !Json.isLow a && paired (.unit b :: rest)
  | .unit a :: rest => !Json.isHigh a && !Json.isLow a && paired rest

def readString (cs : List Char) : Option (String × List Char) := do
  let (marks, rest) ← Json.readMarks cs
  if paired marks then return (String.ofList (Json.joinMarks marks), rest)
  none

def skipInLine (cs : List Char) : List Char :=
  cs.dropWhile fun c => Json.isSpace c && c != '\n'

def skipComma (cs : List Char) : Option (List Char) :=
  match skipInLine cs with
  | ',' :: rest | '\n' :: rest => some (Json.skipSpace rest)
  | _ => none

mutual

def readValue : (fuel : Nat) → List Char → Option (Constraint × List Char)
  | 0, _ => none
  | fuel + 1, cs =>
    match Json.skipSpace cs with
    | [] => none
    | '"' :: rest => do
      let (s, rest) ← readString rest
      return (.value (.string s), rest)
    | '[' :: rest => do
      match Json.skipSpace rest with
      | ']' :: rest => return (.list [], rest)
      | rest =>
        let (items, rest) ← readItems fuel rest
        return (.list items, rest)
    | '\x7b' :: rest => do
      match Json.skipSpace rest with
      | '\x7d' :: rest => return (.struct [], rest)
      | rest =>
        let (members, rest) ← readMembers fuel rest
        return (.struct members, rest)
    | c :: rest =>
      if c = '-' ∨ Json.isDigit c then do
        let (literal, rest) ← Json.readNumber (c :: rest)
        return (.value (.number literal), rest)
      else readWord (c :: rest)

def readItems : (fuel : Nat) → List Char → Option (List Constraint × List Char)
  | 0, _ => none
  | fuel + 1, cs => do
    let (item, rest) ← readValue fuel cs
    match skipInLine rest with
    | ']' :: rest => return ([item], rest)
    | rest =>
      match ← skipComma rest with
      | ']' :: rest => return ([item], rest)
      | rest =>
        let (items, rest) ← readItems fuel rest
        return (item :: items, rest)

/-- One or more members and the closing brace, which a comma may stand before. The colon stands in
the line of the name. -/
def readMembers : (fuel : Nat) → List Char → Option (List (String × Constraint) × List Char)
  | 0, _ => none
  | fuel + 1, cs => do
    match Json.skipSpace cs with
    | '"' :: rest =>
      let (name, rest) ← readString rest
      match skipInLine rest with
      | ':' :: rest =>
        let (member, rest) ← readValue fuel rest
        match skipInLine rest with
        | '\x7d' :: rest => return ([(name, member)], rest)
        | rest =>
          match ← skipComma rest with
          | '\x7d' :: rest => return ([(name, member)], rest)
          | rest =>
            let (members, rest) ← readMembers fuel rest
            return ((name, member) :: members, rest)
      | _ => none
    | _ => none

end

def read? (text : String) : Option Constraint :=
  let cs := text.toList
  if (Json.skipSpace cs).isEmpty then some (.struct [])
  else
    match readValue (2 * cs.length + 1) cs with
    | some (c, rest) => if (Json.skipSpace rest).isEmpty then some c else none
    | none => none

def isWholeLiteral (literal : String) : Bool :=
  literal.toList.all fun c => Json.isDigit c || c == '-'

def admits (type : String) : Json → Bool
  | .string _ => type == "string" || type == "_"
  | .bool _ => type == "bool" || type == "_"
  | .number literal =>
    type == "number" || type == "_" ||
      (if isWholeLiteral literal then type == "int" else type == "float")
  | _ => type == "_"

def narrower (a b : String) : Option String :=
  if a = b ∨ b = "_" then some a
  else if a = "_" then some b
  else if a = "number" ∧ (b = "int" ∨ b = "float") then some b
  else if b = "number" ∧ (a = "int" ∨ a = "float") then some a
  else none

def sameNumber (a b : String) : Bool :=
  isWholeLiteral a == isWholeLiteral b &&
    match Decimal.read? a.toList, Decimal.read? b.toList with
    | some x, some y =>
      if x.coefficient = 0 ∨ y.coefficient = 0 then x.coefficient == y.coefficient
      else x.trim a.length == y.trim b.length
    | _, _ => false

def sameScalar : Json → Json → Bool
  | .null, .null => true
  | .bool a, .bool b => a = b
  | .number a, .number b => sameNumber a b
  | .string a, .string b => a = b
  | _, _ => false

mutual

/-- What satisfies both constraints; none if nothing does. -/
def unify : (fuel : Nat) → Constraint → Constraint → Option Constraint
  | 0, _, _ => none
  | _ + 1, .type a, .type b => (narrower a b).map .type
  | _ + 1, .type a, .value v => if admits a v then some (.value v) else none
  | _ + 1, .value v, .type a => if admits a v then some (.value v) else none
  | _ + 1, .type a, c => if a = "_" then some c else none
  | _ + 1, c, .type a => if a = "_" then some c else none
  | _ + 1, .value v, .value w => if sameScalar v w then some (.value v) else none
  | fuel + 1, .list xs, .list ys => (unifyItems fuel xs ys).map .list
  | fuel + 1, .struct xs, .struct ys => (unifyMembers fuel xs ys).map .struct
  | _ + 1, _, _ => none

def unifyItems : (fuel : Nat) → List Constraint → List Constraint → Option (List Constraint)
  | 0, _, _ => none
  | _ + 1, [], [] => some []
  | fuel + 1, x :: xs, y :: ys => do return (← unify fuel x y) :: (← unifyItems fuel xs ys)
  | _ + 1, _, _ => none

def unifyMembers :
    (fuel : Nat) → List (String × Constraint) → List (String × Constraint) →
      Option (List (String × Constraint))
  | 0, _, _ => none
  | _ + 1, xs, [] => some xs
  | fuel + 1, xs, y :: ys => do unifyMembers fuel (← unifyMember fuel xs y) ys

def unifyMember :
    (fuel : Nat) → List (String × Constraint) → String × Constraint →
      Option (List (String × Constraint))
  | 0, _, _ => none
  | _ + 1, [], y => some [y]
  | fuel + 1, x :: xs, y => do
    if x.1 = y.1 then return (x.1, ← unify fuel x.2 y.2) :: xs
    else return x :: (← unifyMember fuel xs y)

end

mutual

def merge (fuel : Nat) : Constraint → Option Constraint
  | .type a => some (.type a)
  | .value v => some (.value v)
  | .list items => (mergeItems fuel items).map .list
  | .struct members => do
    let merged ← mergeMembers fuel members
    return .struct (← unifyMembers fuel [] merged)

def mergeItems (fuel : Nat) : List Constraint → Option (List Constraint)
  | [] => some []
  | c :: cs => do return (← merge fuel c) :: (← mergeItems fuel cs)

def mergeMembers (fuel : Nat) : List (String × Constraint) → Option (List (String × Constraint))
  | [] => some []
  | (name, c) :: rest => do return (name, ← merge fuel c) :: (← mergeMembers fuel rest)

end

/-- Digits of a number with all zeros that are written. A power of ten is written out unless the
digits end left of the point or begin more than six places right of it. -/
def numberText (d : Decimal) : List Char :=
  let digits := Nat.toDigits 10 d.coefficient
  let places := if d.coefficient = 0 then digits.length + (-d.exponent).toNat else digits.length
  let lead := d.exponent + places - 1
  let body :=
    if d.exponent ≤ 0 ∧ -6 ≤ lead then Layout.positional digits (d.exponent + digits.length)
    else digits.take 1 ++ (if digits.length ≤ 1 then [] else '.' :: digits.drop 1) ++
      'E' :: Layout.exponentText 1 lead
  if d.negative && d.coefficient != 0 then '-' :: body else body

def scalarJson : Json → Json
  | .number literal =>
    match Decimal.read? literal.toList with
    | some d => .number (String.ofList (numberText d))
    | none => .number literal
  | v => v

mutual

def concrete : Constraint → Option Json
  | .type _ => none
  | .value v => some (scalarJson v)
  | .list items => (concreteItems items).map .array
  | .struct members => (concreteMembers members).map .object

def concreteItems : List Constraint → Option (List Json)
  | [] => some []
  | c :: cs => do return (← concrete c) :: (← concreteItems cs)

def concreteMembers : List (String × Constraint) → Option (List (String × Json))
  | [] => some []
  | (name, c) :: rest => do return (name, ← concrete c) :: (← concreteMembers rest)

end

def compile? (octets : List UInt8) : Option Constraint := do
  let text ← Text.Utf8.strict? octets
  let c ← read? (String.ofList text)
  merge (4 * text.length + 16) c

def lookup : Constraint → String → Option Constraint
  | .struct members, name => members.lookup name
  | _, _ => none

def marshal? (c : Constraint) : Option String := do
  let j ← c.concrete
  return String.ofList (j.write (Json.writeString Json.escapeLines) [])

end Constraint

/-- The part of CUE in which labels are quoted and values are JSON or the names of types. -/
instance : CueEvaluator where
  Value := Constraint
  compile := Constraint.compile?
  lookup := Constraint.lookup
  marshal := Constraint.marshal?

end TenantQuery
