import TenantQuery.Number.Decimal

namespace TenantQuery.Double

def readsBack (x : Double) (c : Nat) (place : Int) : Bool :=
  match (Decimal.mk x.negative c place).toDouble? with
  | some y => y == x
  | none => false

/-- The multiple of `10 ^ place` next to `x` that reads back; of two such, the nearer. -/
def onGrid? (x : Double) (place : Int) : Option Decimal :=
  let (n, d) := Quotient.scale 10 x.num x.den place
  let low := n / d
  let nearer := if Quotient.round n d = low then low else low + 1
  let other := if nearer = low then low + 1 else low
  if x.readsBack nearer place then some ⟨x.negative, nearer, place⟩
  else if x.readsBack other place then some ⟨x.negative, other, place⟩
  else none

def exactDecimal (x : Double) : Decimal :=
  if 0 ≤ x.exponent then ⟨x.negative, x.num, 0⟩
  else ⟨x.negative, x.mantissa * Nat.pow 5 (-x.exponent).toNat, x.exponent⟩

def shortest (x : Double) : Decimal :=
  if x.isZero then ⟨x.negative, 0, 0⟩
  else
    let lead := Quotient.leadingPlace x.num x.den
    let found := (List.range 17).findSome? fun (more : Nat) => x.onGrid? (lead - more)
    (found.getD x.exactDecimal).trim 400

end TenantQuery.Double
