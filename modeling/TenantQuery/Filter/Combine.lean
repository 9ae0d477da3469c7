import TenantQuery.Filter.Basic

namespace TenantQuery.Filter

mutual

/-- A filter as operand of a junction: those of the same kind give their own operands, at any
depth. -/
def flatten (op : Junction) : Filter → List Filter
  | .junction op' none => if op' = op then [] else [.junction op' none]
  | .junction op' (some fs) => if op' = op then flattenAll op fs else [.junction op' (some fs)]
  | .test p => [.test p]
  | .not f => [.not f]
  | .constant b => [.constant b]

def flattenAll (op : Junction) : List Filter → List Filter
  | [] => []
  | f :: fs => flatten op f ++ flattenAll op fs

end

def rejoin (op : Junction) : List Filter → Option Filter
  | [] => none
  | [f] => some f
  | fs => some (junctionOf op fs)

def join (op : Junction) (filters : List (Option Filter)) : Option Filter :=
  rejoin op (filters.flatMap fun
    | some f => flatten op f
    | none => [])

def allOf (filters : List (Option Filter)) : Option Filter :=
  join .all filters

def anyOf (filters : List (Option Filter)) : Option Filter :=
  join .any filters

def negate (f : Option Filter) : Option Filter :=
  f.map .not

def complement : Filter → Filter
  | .constant b => .constant (!b)
  | f => .not f

/-- What a filter in normal form contributes to a junction. -/
def contribution (op : Junction) : Filter → List Filter
  | .constant b => if b = op.unit then [] else [.constant b]
  | .junction op' fs => if op' = op then fs.getD [] else [.junction op' fs]
  | f => [f]

def collapse (op : Junction) : List Filter → Filter
  | [] => .constant op.unit
  | [f] => f
  | fs => junctionOf op fs

mutual

/-- Folds constants away, flattens nested junctions and unwraps junctions of one operand. -/
def normalize : Filter → Filter
  | .test p => .test p
  | .constant b => .constant b
  | .not f => complement (normalize f)
  | .junction op none => .constant op.unit
  | .junction op (some fs) => collapse op (normalizeAll op fs)

def normalizeAll (op : Junction) : List Filter → List Filter
  | [] => []
  | f :: fs => contribution op (normalize f) ++ normalizeAll op fs

end

end TenantQuery.Filter
