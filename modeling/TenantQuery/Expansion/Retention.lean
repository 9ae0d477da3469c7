import TenantQuery.Expansion.Options

namespace TenantQuery.Expansion

namespace Retention

/-- The month that begins with the month of `start` shifted by `i`, up to its last second. -/
def month (start : Instant) (i : Nat) : Interval :=
  let first := (start.add .month i).beginningOf .month
  ⟨first, first.endOf .month⟩

def months (start stop : Instant) : List Interval :=
  (List.range (start.monthsBetween stop + 1).toNat).map (month start)

def title (m : Interval) : String :=
  m.start.wire ++ "_" ++ m.stop.wire

def sketchName (m : Interval) : String :=
  "_" ++ title m

def aggregator (options : Options) (m : Interval) : Aggregator :=
  options.filteredSketch (.test (.during ⟨"__time", some [m]⟩)) (sketchName m)

def postAggregator (row column : Interval) : PostAggregator :=
  .sketchEstimate ("retention_" ++ title row ++ "_" ++ title column)
    (intersection [sketchName row, sketchName column])

def triangle : List Interval → List PostAggregator
  | [] => []
  | row :: rest => (row :: rest).map (postAggregator row) ++ triangle rest

def distinctFrom (encode : α → Json) : (seen : List String) → List α → List α
  | _, [] => []
  | seen, a :: as =>
    match (encode a).canonical with
    | .error _ => a :: distinctFrom encode seen as
    | .ok key =>
      if seen.contains key then distinctFrom encode seen as
      else a :: distinctFrom encode (key :: seen) as

def distinct (encode : α → Json) (as : List α) : List α :=
  distinctFrom encode [] as

/-- The first interval, of the relative ones only where no list of absolute ones is given. -/
def window (options : Options) (q : Query) : Except CompileError Interval :=
  let intervals :=
    match q.intervals, q.relativeIntervals with
    | some is, _ => is
    | none, some rs => rs.map fun r => r.resolve options.now
    | none, none => []
  match intervals with
  | [] => .error .noWindow
  | first :: _ => .ok first

end Retention

def retention (options : Options) (q : Query) : Except CompileError Query := do
  let window ← Retention.window options q
  if window.start.monthsBetween window.stop < 1 then throw (.shortWindow window.wire)
  let months := Retention.months window.start window.stop
  return { q with
    queryType := .groupBy
    granularity := .all
    aggregations := some
      (Retention.distinct Aggregator.encode (months.map (Retention.aggregator options)))
    postAggregations := some
      (Retention.distinct PostAggregator.encode (Retention.triangle months)) }

end TenantQuery.Expansion
