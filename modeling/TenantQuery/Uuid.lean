import TenantQuery.Error
import TenantQuery.Text.Utf8

namespace TenantQuery

structure Uuid where
  value : BitVec 128
deriving DecidableEq, Inhabited

namespace Uuid

def zero : Uuid := ⟨0⟩

def hyphenate (digits : List Char) : List Char :=
  digits.take 8 ++ '-' :: ((digits.drop 8).take 4 ++ '-' :: ((digits.drop 12).take 4 ++ '-' ::
    ((digits.drop 16).take 4 ++ '-' :: digits.drop 20)))

def chars (u : Uuid) : List Char :=
  hyphenate (Text.Hex.padded 32 u.value.toNat)

def text (u : Uuid) : String :=
  String.ofList u.chars

def upperText (u : Uuid) : String :=
  String.ofList (u.chars.map Char.toUpper)

def ofDigits? (digits : List Char) : Option Uuid :=
  if digits.length = 32 then
    (Text.Hex.number? digits).map fun n => ⟨BitVec.ofNat 128 n⟩
  else none

def ofHyphenated? (cs : List Char) : Option Uuid :=
  let hyphens := [8, 13, 18, 23].map fun i => cs[i]?
  if hyphens.all (· == some '-') then
    ofDigits? (cs.take 8 ++ (cs.drop 9).take 4 ++ (cs.drop 14).take 4 ++ (cs.drop 19).take 4 ++
      (cs.drop 24).take 12)
  else none

def orMalformed (u : Option Uuid) : Except Error Uuid :=
  match u with
  | some u => .ok u
  | none => .error .uuidFormat

def octetChars (s : String) : List Char :=
  s.toUTF8.toList.map fun b => Char.ofNat b.toNat

def scheme : List Char := ['u', 'r', 'n', ':', 'u', 'u', 'i', 'd', ':']

def parse (s : String) : Except Error Uuid :=
  -- The form is told by the number of octets: hyphenated, after a scheme, between two octets of any
  -- kind, or bare digits.
  let cs := octetChars s
  match cs.length with
  | 36 => orMalformed (ofHyphenated? cs)
  | 45 =>
    if (cs.take 9).map Char.toLower = scheme then orMalformed (ofHyphenated? (cs.drop 9))
    else .error (.uuidScheme (s.toUTF8.toList.take 9))
  | 38 => orMalformed (ofHyphenated? (cs.drop 1))
  | 32 => orMalformed (ofDigits? cs)
  | n => .error (.uuidLength n)

end Uuid

end TenantQuery
