import TenantQuery.Text.Utf8

namespace TenantQuery.Yaml.Source

/-- Characters of two octets each, `number` being the value of a pair of octets. Characters beyond
U+FFFF are pairs of surrogates. -/
def readUnits (number : UInt8 → UInt8 → Nat) : List UInt8 → Option (List Char)
  | [] => some []
  | a :: b :: rest =>
    let n := number a b
    if n < 0xd800 ∨ 0xe000 ≤ n then (readUnits number rest).map (Char.ofNat n :: ·)
    else
      match rest with
      | c :: d :: rest =>
        let m := number c d
        if n < 0xdc00 ∧ 0xdc00 ≤ m ∧ m < 0xe000 then
          (readUnits number rest).map
            (Char.ofNat (0x10000 + (n - 0xd800) * 0x400 + (m - 0xdc00)) :: ·)
        else none
      | _ => none
  | [_] => none

def decode : List UInt8 → Option (List Char)
  | 0xff :: 0xfe :: rest => readUnits (fun low high => 256 * high.toNat + low.toNat) rest
  | 0xfe :: 0xff :: rest => readUnits (fun high low => 256 * high.toNat + low.toNat) rest
  | 0xef :: 0xbb :: 0xbf :: rest => Text.Utf8.strict? rest
  | octets => Text.Utf8.strict? octets

def isReadable (c : Char) : Bool :=
  c == '\t' || c == '\n' || c == '\r' || c == '\u0085' ||
    (' ' ≤ c && c ≤ '~') || ('\u00a0' ≤ c && c ≤ '\ufffd') || 0x10000 ≤ c.toNat

def joinLineEnds : List Char → List Char
  | [] => []
  | '\r' :: '\n' :: rest => '\n' :: joinLineEnds rest
  | '\r' :: rest => '\n' :: joinLineEnds rest
  | c :: rest => (if c = '\u0085' then '\n' else c) :: joinLineEnds rest

def read (octets : List UInt8) : Option (List Char) := do
  let text ← decode octets
  if text.all isReadable then return joinLineEnds text else none

end TenantQuery.Yaml.Source
