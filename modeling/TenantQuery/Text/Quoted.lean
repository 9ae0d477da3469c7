import TenantQuery.Text.Hex
import TenantQuery.Text.Printable
import TenantQuery.Text.Utf8

namespace TenantQuery.Text.Quoted

def spell (c : Char) : List Char :=
  match c with
  | '"' => ['\\', '"']
  | '\\' => ['\\', '\\']
  | '\x07' => ['\\', 'a']
  | '\x08' => ['\\', 'b']
  | '\x0c' => ['\\', 'f']
  | '\n' => ['\\', 'n']
  | '\r' => ['\\', 'r']
  | '\t' => ['\\', 't']
  | '\x0b' => ['\\', 'v']
  | c =>
    if isPrintable c then [c]
    else if c.toNat < 0x20 ∨ c.toNat = 0x7f then '\\' :: 'x' :: Hex.padded 2 c.toNat
    else if c.toNat < 0x10000 then '\\' :: 'u' :: Hex.padded 4 c.toNat
    else '\\' :: 'U' :: Hex.padded 8 c.toNat

def spellOctets : (skip : Nat) → List UInt8 → List Char
  | _, [] => []
  | skip + 1, _ :: rest => spellOctets skip rest
  | 0, a :: rest =>
    match Utf8.character? a rest with
    | some (c, used) => spell c ++ spellOctets used rest
    | none => '\\' :: 'x' :: (Hex.octet a ++ spellOctets 0 rest)

end TenantQuery.Text.Quoted

namespace TenantQuery.Text

def quote (s : String) : String :=
  String.ofList ('"' :: (s.toList.flatMap Quoted.spell ++ ['"']))

def quoteOctets (bytes : List UInt8) : String :=
  String.ofList ('"' :: (Quoted.spellOctets 0 bytes ++ ['"']))

end TenantQuery.Text
