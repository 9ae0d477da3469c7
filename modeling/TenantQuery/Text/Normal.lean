import TenantQuery.Text.Composition

namespace TenantQuery.Text

namespace Hangul

def firstSyllable : Nat := 0xac00
def firstLead : Nat := 0x1100
def firstVowel : Nat := 0x1161
def beforeFirstTail : Nat := 0x11a7

def decompose? (n : Nat) : Option (List Nat) :=
  if n < firstSyllable ∨ firstSyllable + 11172 ≤ n then none
  else
    let i := n - firstSyllable
    let tail := if i % 28 = 0 then [] else [beforeFirstTail + i % 28]
    some ((firstLead + i / 588) :: (firstVowel + i % 588 / 28) :: tail)

def compose? (m n : Nat) : Option Nat :=
  if firstLead ≤ m ∧ m < firstLead + 19 ∧ firstVowel ≤ n ∧ n < firstVowel + 21 then
    some (firstSyllable + ((m - firstLead) * 21 + (n - firstVowel)) * 28)
  else if firstSyllable ≤ m ∧ m < firstSyllable + 11172 ∧ (m - firstSyllable) % 28 = 0 ∧
      beforeFirstTail < n ∧ n < beforeFirstTail + 28 then
    some (m + (n - beforeFirstTail))
  else none

end Hangul

def combiningClass (c : Char) : Nat :=
  if c.toNat < 0x300 then 0
  else ((Composition.classes.inRange? c.toNat).bind (·.head?)).getD 0

def decompose (n : Nat) : List Nat :=
  if n < 0xc0 then [n]
  else
    match Hangul.decompose? n with
    | some ns => ns
    | none => (Composition.decompositions.find? n).getD [n]

def decomposeChar (c : Char) : List Char :=
  (decompose c.toNat).map Char.ofNat

def pair? (m n : Nat) : Option Nat :=
  match Hangul.compose? m n with
  | some k => some k
  | none => (Composition.pairs.find? (m * 0x1000000 + n)).bind (·.head?)

def composePair? (a b : Char) : Option Char :=
  (pair? a.toNat b.toNat).map Char.ofNat

def insertMark (c : Char) : List Char → List Char
  | [] => [c]
  | d :: rest =>
    if combiningClass d ≤ combiningClass c then d :: insertMark c rest else c :: d :: rest

def orderMarks (run : List Char) : List Char → List Char
  | [] => run
  | c :: rest =>
    if combiningClass c = 0 then run ++ c :: orderMarks [] rest
    else orderMarks (insertMark c run) rest

/-- The base a mark may still join, the marks kept after it (last first) and the last one's class. -/
structure Cluster where
  base : Char
  kept : List Char
  lastClass : Nat

def Cluster.chars (k : Cluster) : List Char :=
  k.base :: k.kept.reverse

/-- A mark joins the base unless a kept mark of its class or a higher one stands between. -/
def Cluster.join? (k : Cluster) (c : Char) : Option Cluster :=
  if !k.kept.isEmpty && combiningClass c ≤ k.lastClass then none
  else (composePair? k.base c).map fun b => { k with base := b }

def composeFrom : Option Cluster → List Char → List Char
  | none, [] => []
  | some k, [] => k.chars
  | none, c :: rest =>
    if combiningClass c = 0 then composeFrom (some ⟨c, [], 0⟩) rest
    else c :: composeFrom none rest
  | some k, c :: rest =>
    match k.join? c with
    | some joined => composeFrom (some joined) rest
    | none =>
      if combiningClass c = 0 then k.chars ++ composeFrom (some ⟨c, [], 0⟩) rest
      else composeFrom (some { k with kept := c :: k.kept, lastClass := combiningClass c }) rest

def joiner : Char := '\u034f'

def nonStarters (c : Char) : Nat × Nat :=
  if combiningClass c ≠ 0 then (1, 1)
  else
    match Composition.nonStarters.inRange? c.toNat with
    | some [leading, trailing] => (leading, trailing)
    | _ => (0, 0)

/-- The length of a run of marks with one more character. A character that does not begin with a mark
begins a run of its own. -/
def tally (count : Nat) (c : Char) : Nat :=
  let (leading, trailing) := nonStarters c
  if leading = 0 then trailing else count + leading

def maxMarks : Nat := 30

/-- Puts a joiner where a run of marks would grow too long; `count` marks stand before the text. -/
def splitRuns : (count : Nat) → List Char → List Char
  | _, [] => []
  | count, c :: rest =>
    let grown := (decomposeChar c).foldl tally count
    if maxMarks < grown then joiner :: c :: splitRuns ((decomposeChar c).foldl tally 0) rest
    else c :: splitRuns grown rest

def compose (cs : List Char) : List Char :=
  composeFrom none (orderMarks [] ((splitRuns 0 cs).flatMap decomposeChar))

/-- Text of characters that neither decompose nor join is composed already. -/
def normalChars (cs : List Char) : List Char :=
  if cs.all (·.toNat < 0xc0) then cs else compose cs

def normal (s : String) : String :=
  String.ofList (normalChars s.toList)

end TenantQuery.Text
