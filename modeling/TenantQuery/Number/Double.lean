namespace TenantQuery

structure Double where
  bits : UInt64
deriving DecidableEq, Inhabited

namespace Double

def zero : Double := ⟨0⟩

def signBit : Nat := 0x8000000000000000

/-- The lowest bit of the exponent; below it stand the 52 bits of the fraction. -/
def exponentBit : Nat := 0x10000000000000

def negative (x : Double) : Bool :=
  signBit ≤ x.bits.toNat

def magnitude (x : Double) : Nat :=
  x.bits.toNat % signBit

def biasedExponent (x : Double) : Nat :=
  x.magnitude / exponentBit

def isFinite (x : Double) : Bool :=
  x.biasedExponent < 2047

def isNaN (x : Double) : Bool :=
  2047 * exponentBit < x.magnitude

def isZero (x : Double) : Bool :=
  x.magnitude == 0

def mantissa (x : Double) : Nat :=
  if x.biasedExponent = 0 then x.magnitude else exponentBit + x.magnitude % exponentBit

def exponent (x : Double) : Int :=
  (max x.biasedExponent 1 : Nat) - 1075

def ofSigned (negative : Bool) (magnitude : Nat) : Double :=
  ⟨UInt64.ofNat (if negative then signBit + magnitude else magnitude)⟩

def ofFloat (x : Float) : Double :=
  ⟨x.toBits⟩

def toFloat (x : Double) : Float :=
  Float.ofBits x.bits

end Double

namespace Quotient

/-- The nearest natural number, a half to the even neighbour. -/
def round (num den : Nat) : Nat :=
  if 2 * (num % den) < den then num / den
  else if den < 2 * (num % den) then num / den + 1
  else num / den + num / den % 2

def scale (base num den : Nat) (power : Int) : Nat × Nat :=
  if 0 ≤ power then (num, den * base.pow power.toNat) else (num * base.pow (-power).toNat, den)

/-- The power of two that leaves 53 bits before the point, or as many as a number can hold. -/
def unitExponent (num den : Nat) : Int :=
  let guess : Int := (Nat.log2 num : Int) - Nat.log2 den - 52
  let (n, d) := scale 2 num den guess
  max (if n / d < Double.exponentBit then guess - 1 else guess) (-1074)

/-- The magnitude of the nearest binary number, a half to the even one; none past the largest. -/
def nearest? (num den : Nat) : Option Nat :=
  if num = 0 then some 0
  else
    let e := unitExponent num den
    let (n, d) := scale 2 num den e
    let magnitude := (e + 1074).toNat * Double.exponentBit + round n d
    if magnitude < 2047 * Double.exponentBit then some magnitude else none

def leadingPlace (num den : Nat) : Int :=
  if den ≤ num then (Nat.toDigits 10 (num / den)).length - 1
  else
    let width := (Nat.toDigits 10 (den / num)).length
    if den ≤ num * Nat.pow 10 (width - 1) then -(width - 1 : Int) else -width

end Quotient

namespace Double

def num (x : Double) : Nat :=
  x.mantissa * Nat.pow 2 x.exponent.toNat

def den (x : Double) : Nat :=
  Nat.pow 2 (-x.exponent).toNat

end Double

end TenantQuery
