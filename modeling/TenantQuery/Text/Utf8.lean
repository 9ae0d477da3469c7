namespace TenantQuery.Text.Utf8

def replacement : Char := '\ufffd'

def isTail (b : UInt8) : Bool :=
  0x80 ≤ b && b ≤ 0xbf

def lead? (b : UInt8) : Option (Nat × UInt8 × UInt8) :=
  if b ≤ 0x7f then some (1, 0, 0)
  else if 0xc2 ≤ b && b ≤ 0xdf then some (2, 0x80, 0xbf)
  else if b == 0xe0 then some (3, 0xa0, 0xbf)
  else if b == 0xed then some (3, 0x80, 0x9f)
  else if 0xe1 ≤ b && b ≤ 0xef then some (3, 0x80, 0xbf)
  else if b == 0xf0 then some (4, 0x90, 0xbf)
  else if 0xf1 ≤ b && b ≤ 0xf3 then some (4, 0x80, 0xbf)
  else if b == 0xf4 then some (4, 0x80, 0x8f)
  else none

def tailBits (b : UInt8) : Nat :=
  b.toNat % 64

/-- The character that starts at a lead octet, and how many octets after the lead belong to it. -/
def character? (a : UInt8) (rest : List UInt8) : Option (Char × Nat) :=
  match lead? a, rest with
  | some (1, _, _), _ => some (Char.ofNat a.toNat, 0)
  | some (2, low, high), b :: _ =>
    if low ≤ b && b ≤ high then some (Char.ofNat (a.toNat % 32 * 64 + tailBits b), 1) else none
  | some (3, low, high), b :: c :: _ =>
    if low ≤ b && b ≤ high && isTail c then
      some (Char.ofNat ((a.toNat % 16 * 64 + tailBits b) * 64 + tailBits c), 2)
    else none
  | some (4, low, high), b :: c :: d :: _ =>
    if low ≤ b && b ≤ high && isTail c && isTail d then
      some (Char.ofNat (((a.toNat % 8 * 64 + tailBits b) * 64 + tailBits c) * 64 + tailBits d), 3)
    else none
  | _, _ => none

def decodeFrom : (skip : Nat) → List UInt8 → List Char
  | _, [] => []
  | skip + 1, _ :: rest => decodeFrom skip rest
  | 0, a :: rest =>
    match character? a rest with
    | some (c, used) => c :: decodeFrom used rest
    | none => replacement :: decodeFrom 0 rest

def decode (bytes : List UInt8) : List Char :=
  decodeFrom 0 bytes

/-- Reads on after leaving out `skip` octets, none at an octet that starts no valid sequence. -/
def strictFrom : (skip : Nat) → List UInt8 → Option (List Char)
  | _, [] => some []
  | skip + 1, _ :: rest => strictFrom skip rest
  | 0, a :: rest => do
    let (c, used) ← character? a rest
    return c :: (← strictFrom used rest)

def strict? (bytes : List UInt8) : Option (List Char) :=
  strictFrom 0 bytes

end TenantQuery.Text.Utf8

namespace TenantQuery.Text

def ofOctets (bytes : List UInt8) : String :=
  String.ofList (Utf8.decode bytes)

def octets (s : String) : List UInt8 :=
  s.toUTF8.data.toList

end TenantQuery.Text
