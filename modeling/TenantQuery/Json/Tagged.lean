import TenantQuery.Json.Record

namespace TenantQuery.Json

def tagged (type : String) (members : List (String × Json)) : Json :=
  .object (("type", .string type) :: members)

def typeFields : List (Member (Option String)) :=
  [.of "type" (Slot.optional Slot.text) (fun _ type => type)]

def readType (kind : String) (j : Json) : Except Error String :=
  match readRecord typeFields none j with
  | .error cause => .error (.node kind "" cause)
  | .ok none => .error (.node kind "" .missingType)
  | .ok (some type) => .ok type

abbrev Forms (α : Type) := List (String × (Json → Except Error α))

/-- A fault inside a node is laid to the innermost node that has it. -/
def blame (kind type : String) (cause : Error) : Error :=
  if cause.nodeFault?.isSome then cause else .node kind type cause

def readNode (kind : String) (forms : Forms α) : Option Json → Except Error α
  | none => .error (.node kind "" .malformed)
  | some j =>
    match readType kind j with
    | .error e => .error e
    | .ok type =>
      match forms.lookup type with
      | none => .error (.node kind type .unknownType)
      | some read => (read j).mapError (blame kind type)

/-- Nodes in order, up to the first that cannot be read. An absent list stays absent. -/
def readNodes (read : Option Json → Except Error α) :
    Option (List Json) → Except Error (Option (List α))
  | none => .ok none
  | some js => (js.mapM fun j => read (some j)).map some

def readOptionalNode (read : Option Json → Except Error α) :
    Option Json → Except Error (Option α)
  | none | some .null => .ok none
  | some j => (read (some j)).map some

def depthOf : Option Json → Nat
  | none => 0
  | some j => j.depth

def parseNode (kind : String) (read : Option Json → Except Error α) (text : String) :
    Except Error α :=
  match parse text with
  | .error cause => .error (.node kind "" cause)
  | .ok j => read (some j)

end TenantQuery.Json
