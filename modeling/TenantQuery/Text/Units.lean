namespace TenantQuery.Text

def unitsOf (c : Char) : List Nat :=
  let n := c.toNat
  if n < 0x10000 then [n]
  else [0xd800 + (n - 0x10000) / 0x400, 0xdc00 + (n - 0x10000) % 0x400]

def units (s : String) : List Nat :=
  s.toList.flatMap unitsOf

def lexLe : List Nat → List Nat → Bool
  | [], _ => true
  | _ :: _, [] => false
  | a :: as, b :: bs => a < b || (a == b && lexLe as bs)

/-- Order by 16-bit units. It differs from the order by code points above U+FFFF. -/
def unitsLe (a b : String) : Bool :=
  lexLe (units a) (units b)

def codesLe (a b : String) : Bool :=
  lexLe (a.toList.map Char.toNat) (b.toList.map Char.toNat)

end TenantQuery.Text
