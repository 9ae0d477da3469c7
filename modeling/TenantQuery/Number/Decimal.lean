import TenantQuery.Number.Double

namespace TenantQuery

structure Decimal where
  negative : Bool
  coefficient : Nat
  exponent : Int
deriving DecidableEq, Inhabited

namespace Decimal

def isDigit (c : Char) : Bool :=
  '0' ≤ c && c ≤ '9'

def digitValue (c : Char) : Nat :=
  c.toNat - 48

def natOf (digits : List Char) : Nat :=
  digits.foldl (fun n c => 10 * n + digitValue c) 0

def takeSign : List Char → Bool × List Char
  | '-' :: rest => (true, rest)
  | '+' :: rest => (false, rest)
  | cs => (false, cs)

/-- An exponent is a mark, an optional sign and at least one digit; none at all counts as zero. -/
def readExponent : List Char → Option Int
  | [] => some 0
  | c :: rest =>
    if c = 'e' ∨ c = 'E' then
      match takeSign rest with
      | (_, []) => none
      | (minus, digits) =>
        if digits.all isDigit then some (if minus then -(natOf digits : Int) else natOf digits)
        else none
    else none

def read? (cs : List Char) : Option Decimal :=
  let (minus, rest) := takeSign cs
  let whole := rest.takeWhile isDigit
  let tail := rest.dropWhile isDigit
  let (fraction, tail) :=
    match tail with
    | '.' :: more => (more.takeWhile isDigit, more.dropWhile isDigit)
    | tail => ([], tail)
  if whole.isEmpty && fraction.isEmpty then none
  else
    (readExponent tail).map fun e => ⟨minus, natOf (whole ++ fraction), e - fraction.length⟩

def toDouble? (d : Decimal) : Option Double :=
  let place := (Nat.toDigits 10 d.coefficient).length + d.exponent
  -- These two tests only keep far powers of ten from being computed.
  if d.coefficient = 0 ∨ place < -330 then some (Double.ofSigned d.negative 0)
  else if 310 < place then none
  else
    let (num, den) := Quotient.scale 10 d.coefficient 1 (-d.exponent)
    (Quotient.nearest? num den).map (Double.ofSigned d.negative)

def trim : (fuel : Nat) → Decimal → Decimal
  | 0, d => d
  | fuel + 1, d =>
    if d.coefficient ≠ 0 ∧ d.coefficient % 10 = 0 then
      trim fuel { d with coefficient := d.coefficient / 10, exponent := d.exponent + 1 }
    else d

end Decimal

end TenantQuery
