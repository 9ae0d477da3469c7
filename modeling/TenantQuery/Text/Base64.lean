namespace TenantQuery.Text.Base64

def sextet? (c : Char) : Option Nat :=
  if 'A' ≤ c ∧ c ≤ 'Z' then some (c.toNat - 65)
  else if 'a' ≤ c ∧ c ≤ 'z' then some (c.toNat - 71)
  else if '0' ≤ c ∧ c ≤ '9' then some (c.toNat + 4)
  else if c = '+' then some 62
  else if c = '/' then some 63
  else none

def octets (n : Nat) : List UInt8 :=
  [(n / 0x10000).toUInt8, (n / 0x100).toUInt8, n.toUInt8]

def decodeGroups : List Char → Option (List UInt8)
  | [] => some []
  | [a, b, '=', '='] => do
    let n := (← sextet? a) * 0x40000 + (← sextet? b) * 0x1000
    return (octets n).take 1
  | [a, b, c, '='] => do
    let n := (← sextet? a) * 0x40000 + (← sextet? b) * 0x1000 + (← sextet? c) * 0x40
    return (octets n).take 2
  | a :: b :: c :: d :: rest => do
    let n := (← sextet? a) * 0x40000 + (← sextet? b) * 0x1000 + (← sextet? c) * 0x40 + (← sextet? d)
    return octets n ++ (← decodeGroups rest)
  | _ => none

def decode? (s : String) : Option (List UInt8) :=
  decodeGroups (s.toList.filter fun c => c != '\n' && c != '\r')

end TenantQuery.Text.Base64
