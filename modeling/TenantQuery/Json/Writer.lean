import TenantQuery.Json.Basic
import TenantQuery.Text.Hex

namespace TenantQuery.Json

def escapePlain (c : Char) : List Char :=
  match c with
  | '"' => ['\\', '"']
  | '\\' => ['\\', '\\']
  | '\x08' => ['\\', 'b']
  | '\x0c' => ['\\', 'f']
  | '\n' => ['\\', 'n']
  | '\r' => ['\\', 'r']
  | '\t' => ['\\', 't']
  | c => if c.toNat < 0x20 then '\\' :: 'u' :: Text.Hex.padded 4 c.toNat else [c]

def isLineEnd (c : Char) : Bool :=
  c == '\u2028' || c == '\u2029'

def isScriptSensitive (c : Char) : Bool :=
  c == '<' || c == '>' || c == '&' || isLineEnd c

def escapeUnit (c : Char) : List Char :=
  '\\' :: 'u' :: Text.Hex.padded 4 c.toNat

def escapeSafe (c : Char) : List Char :=
  if isScriptSensitive c then escapeUnit c else escapePlain c

/-- Only the line ends are spelled out beyond what JSON demands. -/
def escapeLines (c : Char) : List Char :=
  if isLineEnd c then escapeUnit c else escapePlain c

def writeString (escape : Char → List Char) (s : String) (rest : List Char) : List Char :=
  '"' :: (s.toList.flatMap escape ++ '"' :: rest)

mutual

/-- The text of a value with strings as `quote` writes them, and `rest` after it. -/
def write (quote : String → List Char → List Char) : Json → (rest : List Char) → List Char
  | .null, rest => 'n' :: 'u' :: 'l' :: 'l' :: rest
  | .bool true, rest => 't' :: 'r' :: 'u' :: 'e' :: rest
  | .bool false, rest => 'f' :: 'a' :: 'l' :: 's' :: 'e' :: rest
  | .number literal, rest => literal.toList ++ rest
  | .string s, rest => quote s rest
  | .array [], rest => '[' :: ']' :: rest
  | .array (item :: items), rest => '[' :: write quote item (writeItems quote items rest)
  | .object [], rest => '\x7b' :: '\x7d' :: rest
  | .object ((key, value) :: members), rest =>
    '\x7b' :: quote key (':' :: write quote value (writeMembers quote members rest))

def writeItems (quote : String → List Char → List Char) : List Json → (rest : List Char) → List Char
  | [], rest => ']' :: rest
  | item :: items, rest => ',' :: write quote item (writeItems quote items rest)

def writeMembers (quote : String → List Char → List Char) :
    List (String × Json) → (rest : List Char) → List Char
  | [], rest => '\x7d' :: rest
  | (key, value) :: members, rest =>
    ',' :: quote key (':' :: write quote value (writeMembers quote members rest))

end

def encode (j : Json) : String :=
  String.ofList (j.write (writeString escapeSafe) [])

def writePlain (j : Json) : String :=
  String.ofList (j.write (writeString escapePlain) [])

end TenantQuery.Json
