import TenantQuery.Json.Raw

namespace TenantQuery.Json

def newLine (depth : Nat) : List Char :=
  '\n' :: List.replicate (2 * depth) ' '

def isOpening (c : Char) : Bool :=
  c == '[' || c == '\x7b'

def isClosing (c : Char) : Bool :=
  c == ']' || c == '\x7d'

/-- Text that stands at a place. A bracket that was just opened waits for what comes next, because
an empty list or object stays on its line. -/
def spread : Place → (opened : Bool) → List Char → List Char
  | _, _, [] => []
  | ⟨true, d⟩, _, '\\' :: c :: rest => '\\' :: c :: spread ⟨true, d⟩ false rest
  | ⟨true, d⟩, _, c :: rest => c :: spread ⟨c != '"', d⟩ false rest
  | ⟨false, d⟩, opened, c :: rest =>
    if isClosing c then
      if opened then c :: spread ⟨false, d⟩ false rest
      else newLine (d - 1) ++ c :: spread ⟨false, d - 1⟩ false rest
    else
      let depth := if opened then d + 1 else d
      let lead := if opened then newLine depth else []
      if isOpening c then lead ++ c :: spread ⟨false, depth⟩ true rest
      else if c = ',' then lead ++ c :: newLine depth ++ spread ⟨false, depth⟩ false rest
      else if c = ':' then lead ++ c :: ' ' :: spread ⟨false, depth⟩ false rest
      else lead ++ c :: spread ⟨c == '"', depth⟩ false rest

def indented (text : String) : String :=
  String.ofList (spread ⟨false, 0⟩ false text.toList)

def writeItemTexts (items : List String) : String :=
  "[" ++ ",".intercalate items ++ "]"

def encodeLines (j : Json) : String :=
  String.ofList (j.write (writeString escapeLines) [])

end TenantQuery.Json
