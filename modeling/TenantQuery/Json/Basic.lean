namespace TenantQuery

inductive Json where
  | null
  | bool (value : Bool)
  | number (literal : String)
  | string (text : String)
  | array (items : List Json)
  | object (members : List (String × Json))
deriving Inhabited

namespace Json

def isNull : Json → Bool
  | .null => true
  | _ => false

def members? : Json → Option (List (String × Json))
  | .object members => some members
  | _ => none

/-- The last value of a member counts. -/
def lastOf (members : List (String × α)) (key : String) : Option α :=
  members.foldl (fun found m => if m.1 = key then some m.2 else found) none

/-- Members without those that a later one of the same name replaces. -/
def lastWins : List (String × α) → List (String × α)
  | [] => []
  | m :: rest =>
    if rest.any (fun n => n.1 = m.1) then lastWins rest else m :: lastWins rest

mutual

def depth : Json → Nat
  | .array items => itemsDepth items + 1
  | .object members => membersDepth members + 1
  | _ => 0

def itemsDepth : List Json → Nat
  | [] => 0
  | j :: js => max (depth j) (itemsDepth js)

def membersDepth : List (String × Json) → Nat
  | [] => 0
  | (_, j) :: rest => max (depth j) (membersDepth rest)

end

def ofInt (n : Int) : Json :=
  .number (toString n)

def ofNat (n : Nat) : Json :=
  .number (toString n)

def strings (texts : List String) : Json :=
  .array (texts.map .string)

end Json

end TenantQuery
