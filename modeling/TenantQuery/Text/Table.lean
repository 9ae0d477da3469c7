namespace TenantQuery.Text

/-- A search tree of rows of numbers, each under the number that it starts with. -/
inductive Table where
  | leaf
  | node (left : Table) (key : Nat) (cells : List Nat) (right : Table)

namespace Table

def unpack : (fuel line : Nat) → List Nat → List Nat
  | 0, _, cells => cells
  | fuel + 1, line, cells =>
    if line = 0 then cells else unpack fuel (line / 0x1000000) (line % 0x1000000 :: cells)

def splitRows : List Nat → List Nat × List (Nat × List Nat)
  | [] => ([], [])
  | n :: rest =>
    let (cells, rows) := splitRows rest
    if n < 0x800000 then (n :: cells, rows) else ([], (n - 0x800000, cells) :: rows)

def build : (height : Nat) → List (Nat × List Nat) → Table × List (Nat × List Nat)
  | 0, rows => (leaf, rows)
  | height + 1, rows =>
    match build height rows with
    | (left, []) => (left, [])
    | (left, (key, cells) :: rest) =>
      let (right, rest) := build height rest
      (node left key cells right, rest)

def rowsOf (lines : List Nat) : List (Nat × List Nat) :=
  lines.flatMap fun line => (splitRows (unpack 16 line [])).2

def ofRows (rows : List (Nat × List Nat)) : Table :=
  (build 12 rows).1

def find? : Table → Nat → Option (List Nat)
  | leaf, _ => none
  | node left key cells right, n =>
    if n < key then left.find? n else if n = key then some cells else right.find? n

def inRange? : Table → Nat → Option (List Nat)
  | leaf, _ => none
  | node left first cells right, n =>
    if n < first then left.inRange? n
    else if n ≤ cells.headD 0 then some (cells.drop 1) else right.inRange? n

end Table

end TenantQuery.Text
