import TenantQuery.Compiler.Basic
import TenantQuery.Json.Raw

namespace TenantQuery

inductive Stage where
  | precompile
  | runnable
deriving DecidableEq

namespace Stage

def name : Stage → String
  | .precompile => "precompile"
  | .runnable => "runnable"

def ofName? (s : String) : Option Stage :=
  match s with
  | "precompile" => some .precompile
  | "runnable" => some .runnable
  | _ => none

end Stage

/-- The text that a precompiled query is given out as. It is canonical already, but is written once
more as part of another document, so that it goes through the safe spelling and the canonical form
again. -/
def Precompiled.emit (p : Precompiled) : Except Error String := do
  let text ← p.query.canonical
  Json.canonicalize (String.ofList (Json.compact false text.toList))

structure Emission where
  hash : String
  text : Except Error String

namespace Compiler

def emitAt (c : Compiler) (stage : Stage) (p : Precompiled) : Except Error String :=
  match stage with
  | .precompile => p.emit
  | .runnable =>
    match c.runnable p with
    | .error e => .error (.compile e)
    | .ok (out, _) => out.canonical

def emit (c : Compiler) (stage : Stage) (q : Query) (organization : List Uuid) (superOrg : Bool) :
    Except Error Emission := do
  let (p, _) ← c.precompile q organization superOrg
  return ⟨p.hash, c.emitAt stage p⟩

def records (c : Compiler) (stage : Stage) (q : Query) (organization : List Uuid)
    (superOrg : Bool) : List LogRecord :=
  match stage with
  | .runnable => c.compileRecords q organization superOrg
  | .precompile =>
    match c.precompile q organization superOrg with
    | .error _ => []
    | .ok (_, records) => records

end Compiler

end TenantQuery
