namespace TenantQuery.Text

variable {α : Type} [DecidableEq α]

def distanceCells (a : α) : (diagonal left : Nat) → List α → List Nat → List Nat
  | diagonal, left, b :: bs, up :: ups =>
    let here := if a = b then diagonal else 1 + min diagonal (min left up)
    here :: distanceCells a up here bs ups
  | _, _, _, _ => []

/-- The distances of the starts of `bs` to a list that is longer by `a` than the one of the row. -/
def distanceRow (bs : List α) (row : List Nat) (a : α) : List Nat :=
  match row with
  | [] => []
  | first :: ups => (first + 1) :: distanceCells a first (first + 1) bs ups

def distance (as bs : List α) : Nat :=
  (as.foldl (distanceRow bs) (List.range (bs.length + 1))).getLastD 0

end TenantQuery.Text
