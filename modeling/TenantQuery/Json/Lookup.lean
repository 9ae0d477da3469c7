import TenantQuery.Json.Record
import TenantQuery.Text.Blank

namespace TenantQuery.Json

/-- An index into a list: digits after an optional sign. Below zero there is none. -/
def index? (segment : String) : Option Nat :=
  match Decimal.takeSign segment.toList with
  | (minus, digits) =>
    if digits.isEmpty || !digits.all isDigit then none
    else if minus && Decimal.natOf digits != 0 then none
    else some (Decimal.natOf digits)

def child? : Json → String → Option Json
  | .object members, segment => lastOf members segment
  | .array items, segment => (index? segment).bind fun i => items[i]?
  | _, _ => none

def lookup? (j : Json) (path : String) : Option Json :=
  (Text.split '.' path).foldlM child? j

def sameNumber (a b : String) : Bool :=
  let isZero (s : String) : Bool := s = "0" || s = "-0"
  a = b || (isZero a && isZero b)

mutual

def agree : Json → Json → Bool
  | .null, .null => true
  | .bool a, .bool b => a = b
  | .number a, .number b => sameNumber a b
  | .string a, .string b => a = b
  | .array as, .array bs => agreeItems as bs
  | .object as, .object bs => agreeMembers as bs
  | _, _ => false

def agreeItems : List Json → List Json → Bool
  | [], [] => true
  | a :: as, b :: bs => agree a b && agreeItems as bs
  | _, _ => false

def agreeMembers : List (String × Json) → List (String × Json) → Bool
  | [], [] => true
  | (key, a) :: as, b :: bs => key = b.1 && agree a b.2 && agreeMembers as bs
  | _, _ => false

end

mutual

/-- Objects are compared only in the members that are wanted, and so are the objects in them. -/
def includes : (want got : Json) → Bool
  | .object wanted, .object members => includesAll wanted members
  | want, got => agree want got

def includesAll : (wanted members : List (String × Json)) → Bool
  | [], _ => true
  | (key, want) :: wanted, members =>
    (match lastOf members key with
      | some got => includes want got
      | none => false) && includesAll wanted members

end

end TenantQuery.Json
