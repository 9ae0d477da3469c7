import TenantQuery.Number.Shortest

namespace TenantQuery

/-- Exponents of the leading digit from `least` up to `bound` are written positionally, the others
with a mark and at least `width` digits of exponent. -/
structure Layout where
  least : Int
  bound : Int
  width : Nat

namespace Layout

def document : Layout := ⟨-6, 21, 1⟩

def canonicalWhole : Layout := ⟨0, 21, 2⟩

def canonical : Layout := ⟨-4, 6, 2⟩

def zeros (n : Nat) : List Char :=
  List.replicate n '0'

def positional (digits : List Char) (point : Int) : List Char :=
  if point ≤ 0 then '0' :: '.' :: (zeros (-point).toNat ++ digits)
  else if digits.length ≤ point.toNat then digits ++ zeros (point.toNat - digits.length)
  else digits.take point.toNat ++ '.' :: digits.drop point.toNat

def exponentText (width : Nat) (e : Int) : List Char :=
  let digits := Nat.toDigits 10 e.natAbs
  (if e < 0 then '-' else '+') :: (zeros (width - digits.length) ++ digits)

def exponential (digits : List Char) (width : Nat) (e : Int) : List Char :=
  let head := digits.take 1
  let tail := digits.drop 1
  head ++ (if tail.isEmpty then [] else '.' :: tail) ++ 'e' :: exponentText width e

def decimal (layout : Layout) (d : Decimal) : List Char :=
  let digits := Nat.toDigits 10 d.coefficient
  let lead := d.exponent + digits.length - 1
  let body :=
    if d.coefficient = 0 then ['0']
    else if layout.least ≤ lead ∧ lead < layout.bound then positional digits (lead + 1)
    else exponential digits layout.width lead
  if d.negative then '-' :: body else body

def write (layout : Layout) (x : Double) : List Char :=
  layout.decimal x.shortest

end Layout

namespace Double

def isWhole (x : Double) : Bool :=
  x.num % x.den == 0

/-- Scientific notation with `digits` significant digits, rounded from the exact value, a half to
the even neighbour, and at least two digits of exponent. -/
def scientific (digits : Nat) (x : Double) : String :=
  if x.isNaN then "NaN"
  else if !x.isFinite then (if x.negative then "-Inf" else "+Inf")
  else
    let digits := max digits 1
    let sign := if x.negative then ['-'] else []
    if x.isZero then
      String.ofList (sign ++ Layout.exponential (Layout.zeros digits) 2 0)
    else
      let lead := Quotient.leadingPlace x.num x.den
      let (n, d) := Quotient.scale 10 x.num x.den (lead - digits + 1)
      let rounded := Quotient.round n d
      let (rounded, lead) := if rounded = Nat.pow 10 digits then (rounded / 10, lead + 1) else (rounded, lead)
      String.ofList (sign ++ Layout.exponential (Nat.toDigits 10 rounded) 2 lead)

end Double

end TenantQuery
