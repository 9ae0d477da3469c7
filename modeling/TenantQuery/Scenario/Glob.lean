import TenantQuery.Text.Utf8

namespace TenantQuery

namespace Glob

inductive Piece where
  | star
  | any
  | exactly (c : Char)
  | oneOf (negated : Bool) (ranges : List (Char × Char))
deriving DecidableEq

def bound? : List Char → Option (Char × List Char)
  | '\\' :: c :: d :: rest => some (c, d :: rest)
  | c :: d :: rest =>
    if c = '\\' ∨ c = '-' ∨ c = ']' then none else some (c, d :: rest)
  | _ => none

def ranges? : (fuel : Nat) → (found : List (Char × Char)) → List Char →
    Option (List (Char × Char) × List Char)
  | 0, _, _ => none
  | fuel + 1, found, cs =>
    match found, cs with
    | _ :: _, ']' :: rest => some (found, rest)
    | _, _ => do
      let (low, rest) ← bound? cs
      match rest with
      | '-' :: rest =>
        let (high, rest) ← bound? rest
        ranges? fuel (found ++ [(low, high)]) rest
      | rest => ranges? fuel (found ++ [(low, low)]) rest

def pieces? : (fuel : Nat) → List Char → Option (List Piece)
  | _, [] => some []
  | 0, _ => none
  | fuel + 1, '*' :: rest => (pieces? fuel rest).map (.star :: ·)
  | fuel + 1, '?' :: rest => (pieces? fuel rest).map (.any :: ·)
  | fuel + 1, '\\' :: c :: rest => (pieces? fuel rest).map (.exactly c :: ·)
  | _ + 1, '\\' :: [] => none
  | fuel + 1, '[' :: rest => do
    let negated := rest.head? == some '^'
    let (ranges, rest) ← ranges? rest.length [] (if negated then rest.drop 1 else rest)
    return .oneOf negated ranges :: (← pieces? fuel rest)
  | fuel + 1, c :: rest => (pieces? fuel rest).map (.exactly c :: ·)

def parse? (pattern : String) : Option (List Piece) :=
  pieces? pattern.toList.length pattern.toList

def Piece.accepts : Piece → Char → Bool
  | .star, _ => false
  | .any, _ => true
  | .exactly a, c => a = c
  | .oneOf negated ranges, c => ranges.any (fun r => r.1 ≤ c && c ≤ r.2) != negated

def character (a : UInt8) (rest : List UInt8) : Char × List UInt8 :=
  match Text.Utf8.character? a rest with
  | some (c, used) => (c, rest.drop used)
  | none => (Text.Utf8.replacement, rest)

/-- Matches pieces other than stars with the start of a name and leaves what comes after it. -/
def leave? : List Piece → List UInt8 → Option (List UInt8)
  | [], s => some s
  | .exactly c :: ps, s =>
    if (Text.octets (String.singleton c)).isPrefixOf s then
      leave? ps (s.drop (Text.octets (String.singleton c)).length)
    else none
  | _ :: _, [] => none
  | p :: ps, a :: s =>
    let (c, rest) := character a s
    if p.accepts c then leave? ps rest else none

structure Section where
  floats : Bool
  pieces : List Piece
deriving DecidableEq

def sectionsFrom (floats : Bool) (read : List Piece) : List Piece → List Section
  | [] => [⟨floats, read.reverse⟩]
  | .star :: ps => ⟨floats, read.reverse⟩ :: sectionsFrom true [] ps
  | p :: ps => sectionsFrom floats (p :: read) ps

def sections (pieces : List Piece) : List Section :=
  sectionsFrom false [] pieces

def suffixes : List UInt8 → List (List UInt8)
  | [] => [[]]
  | a :: s => (a :: s) :: suffixes s

def Section.leave? (last : Bool) (k : Section) (s : List UInt8) : Option (List UInt8) :=
  (if k.floats then suffixes s else [s]).findSome? fun start =>
    (Glob.leave? k.pieces start).filter fun rest => !last || rest.isEmpty

/-- The sections match all of a name. A section stays at the first place where it fits. -/
def acceptsSections : List Section → List UInt8 → Bool
  | [], s => s.isEmpty
  | k :: ks, s =>
    match k.leave? ks.isEmpty s with
    | some rest => acceptsSections ks rest
    | none => false

def accepts (pieces : List Piece) (name : String) : Bool :=
  acceptsSections (sections pieces) (Text.octets name)

end Glob

end TenantQuery
