import TenantQuery.Compiler.Scope
import TenantQuery.Expansion.Convenience
import TenantQuery.Expansion.Experiment
import TenantQuery.Expansion.Funnel
import TenantQuery.Expansion.Retention
import TenantQuery.Validation

namespace TenantQuery

inductive LogLevel where
  | warn
  | debug
deriving DecidableEq

structure LogRecord where
  level : LogLevel
  message : String
  attributes : List (String × String)
deriving DecidableEq

structure Compiler where
  config : Config := .standard
  now : Instant

/-- A query that has been through the first phase. -/
structure Precompiled where
  source : QueryType
  query : Query
  hash : String

namespace Compiler

def options (c : Compiler) : Expansion.Options :=
  ⟨c.config.userField, c.now⟩

def checkIntervals (q : Query) : Except CompileError Unit :=
  let absolute := !(q.intervals.getD []).isEmpty
  let relative := !(q.relativeIntervals.getD []).isEmpty
  if !absolute && !relative then .error .noIntervals
  else if absolute && relative then .error .twoIntervals
  else .ok ()

def checkTopN (q : Query) : Except CompileError Unit :=
  if q.threshold.isNone then .error .noThreshold
  else if q.metric.isNone then .error .noMetric
  else if q.dimension.isNone then .error .noDimension
  else .ok ()

def expand (c : Compiler) (q : Query) : Except CompileError Query :=
  match q.queryType with
  | .funnel => Expansion.funnel c.options q
  | .retention => Expansion.retention c.options q
  | .experiment => Expansion.experiment c.options q
  | _ => .ok q

/-- All of the first phase that does not depend on the tenant. -/
def lower (c : Compiler) (q : Query) : Except CompileError Query := do
  checkIntervals q
  let expanded ← c.expand q
  let (aggregations, postAggregations) :=
    Expansion.lowerConvenience c.options expanded.aggregations expanded.postAggregations
  let lowered := { expanded with aggregations, postAggregations }
  if lowered.queryType = .topN then checkTopN lowered
  return lowered

def warningsOf (q : Query) : List Warning :=
  validate q.filter (q.aggregations.getD []) (q.postAggregations.getD [])

def warningRecord (hash : String) (w : Warning) : LogRecord :=
  ⟨.warn, "precompiled query", [("warning", w.message), ("hash", hash)]⟩

def precompiledRecord (p : Precompiled) (policy : Policy) : LogRecord :=
  ⟨.debug, "precompiled",
    [("query_type", p.source.name), ("base_filters", policy.name), ("hash", p.hash)]⟩

def contextDefaults (config : Config) : Context :=
  { timeout := some config.contextTimeout, skipEmptyBuckets := some config.skipEmptyBuckets }

/-- Adds the scope of the tenant to a lowered query and takes the tenant language out of it. -/
def scope (c : Compiler) (q lowered : Query) (organization : List Uuid) (superOrg : Bool) :
    Except CompileError Query := do
  let policy := Scope.policyOf q
  let scope ← Scope.filter c.config policy q organization superOrg
  let filtered :=
    { lowered with filter := (Filter.allOf [lowered.filter, scope]).map Filter.normalize }
  let placed :=
    if policy = .noFilter then filtered
    else
      { filtered with
        dataSource := c.config.dataSource
        context := some (Context.merge filtered.context (contextDefaults c.config)) }
  return placed.clearExtensions

def precompile (c : Compiler) (q : Query) (organization : List Uuid) (superOrg : Bool) :
    Except Error (Precompiled × List LogRecord) := do
  let lowered ← (c.lower q).mapError .compile
  let out ← (c.scope q lowered organization superOrg).mapError .compile
  let hash ← out.encode.hash Json.precompiledDomain
  let precompiled : Precompiled := ⟨q.queryType, out, hash⟩
  return (precompiled, (warningsOf out).map (warningRecord hash) ++
    [precompiledRecord precompiled (Scope.policyOf q)])

def check (c : Compiler) (q : Query) : Except CompileError (List Warning) :=
  (c.lower q).map warningsOf

def resolvedRecord (now : Instant) (count : Nat) : LogRecord :=
  ⟨.debug, "resolved relative intervals", [("now", now.wire), ("count", toString count)]⟩

def runnableQuery (c : Compiler) (q : Query) : Except CompileError (Query × List LogRecord) :=
  if !q.extensions.isEmpty then .error (.stillSet q.extensions)
  else if q.queryType.isVirtual then .error (.notExpanded q.queryType.name)
  else
    match q.relativeIntervals with
    | some (r :: rs) =>
      let intervals := (r :: rs).map fun r => r.resolve c.now
      .ok ({ q with intervals := some intervals, relativeIntervals := none },
        [resolvedRecord c.now intervals.length])
    | _ =>
      if (q.intervals.getD []).isEmpty then .error .noRunnableIntervals else .ok (q, [])

def runnable (c : Compiler) (p : Precompiled) : Except CompileError (Query × List LogRecord) :=
  c.runnableQuery p.query

def compile (c : Compiler) (q : Query) (organization : List Uuid) (superOrg : Bool) :
    Except Error Query := do
  let (p, _) ← c.precompile q organization superOrg
  let (out, _) ← (c.runnable p).mapError .compile
  return out

def compileRecords (c : Compiler) (q : Query) (organization : List Uuid) (superOrg : Bool) :
    List LogRecord :=
  match c.precompile q organization superOrg with
  | .error _ => []
  | .ok (p, records) =>
    match c.runnable p with
    | .error _ => records
    | .ok (_, more) => records ++ more

/-- From the text of a document to the canonical text of the runnable query. -/
def compileText (c : Compiler) (text : String) (organization : List Uuid) (superOrg : Bool) :
    Except Error String := do
  let q ← Query.parse text
  let out ← c.compile q organization superOrg
  out.canonical

def require (q : Option Query) : Except Error Query :=
  match q with
  | some q => .ok q
  | none => .error (.compile .noDocument)

def requirePrecompiled (p : Option Precompiled) : Except Error Precompiled :=
  match p with
  | some p => .ok p
  | none => .error (.compile .notPrecompiled)

end Compiler

end TenantQuery
