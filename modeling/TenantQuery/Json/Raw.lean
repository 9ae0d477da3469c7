import TenantQuery.Json.Reader
import TenantQuery.Json.Writer

namespace TenantQuery.Json

def compact : (inString : Bool) → List Char → List Char
  | _, [] => []
  | true, '\\' :: c :: rest => '\\' :: c :: compact true rest
  | true, '"' :: rest => '"' :: compact false rest
  | true, c :: rest => if isScriptSensitive c then escapeUnit c ++ compact true rest
      else c :: compact true rest
  | false, '"' :: rest => '"' :: compact true rest
  | false, c :: rest => if isSpace c then compact false rest else c :: compact false rest

def spellLineEnds (text : String) : String :=
  String.ofList (text.toList.flatMap fun c => if isLineEnd c then escapeUnit c else [c])

/-- Where a scan of compact text stands: in a string or not, and inside how many brackets. -/
structure Place where
  inString : Bool
  depth : Nat

def cut (mark : Char) : Place → (piece : List Char) → List Char → List (List Char)
  | _, piece, [] => [piece.reverse]
  | ⟨true, d⟩, piece, '\\' :: c :: rest => cut mark ⟨true, d⟩ (c :: '\\' :: piece) rest
  | ⟨true, d⟩, piece, c :: rest => cut mark ⟨c != '"', d⟩ (c :: piece) rest
  | ⟨false, d⟩, piece, c :: rest =>
    if d = 0 ∧ c = mark then piece.reverse :: cut mark ⟨false, 0⟩ [] rest
    else if c = '[' ∨ c = '\x7b' then cut mark ⟨false, d + 1⟩ (c :: piece) rest
    else if c = ']' ∨ c = '\x7d' then cut mark ⟨false, d - 1⟩ (c :: piece) rest
    else cut mark ⟨c == '"', d⟩ (c :: piece) rest

def rawMember (text : List Char) : Option (String × List Char) :=
  match cut ':' ⟨false, 0⟩ [] text with
  | key :: first :: more =>
    match parse (String.ofList key) with
    | .ok (.string name) => some (name, List.intercalate [':'] (first :: more))
    | _ => none
  | _ => none

def rawMembers : List Char → List (String × List Char)
  | '\x7b' :: rest => (cut ',' ⟨false, 0⟩ [] rest.dropLast).filterMap rawMember
  | _ => []

def writeTexts (members : List (String × String)) : String :=
  "\x7b" ++ ",".intercalate (members.map fun (key, text) => encode (.string key) ++ ":" ++ text) ++
    "\x7d"

end TenantQuery.Json
