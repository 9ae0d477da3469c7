import TenantQuery.Yaml.Scalar

namespace TenantQuery.Yaml

inductive Node where
  | scalar (text : String) (tag : Tag)
  | sequence (items : List Node)
  | mapping (entries : List (Node × Node))
  | alias (name : String) (target : Node)
  -- A name for a node around this one, so that the node would be part of itself.
  | loop (name : String)
deriving Inhabited

namespace Node

def empty : Node := .scalar "" .null

def isMapping : Node → Bool
  | .mapping _ => true
  | _ => false

def isSequence : Node → Bool
  | .sequence _ => true
  | _ => false

def isMerge : Node → Bool
  | .scalar text tag => text == "<<" && tag == .merge
  | _ => false

def isText : Node → Bool
  | .scalar _ tag => tag == .str || tag == .merge
  | .alias _ target => target.isText
  | _ => false

def clashes : Node → Node → Bool
  | .scalar a _, .scalar b _ => a == b
  | .sequence _, .sequence _ => true
  | .mapping _, .mapping _ => true
  | .alias a _, .alias b _ => a == b
  | .alias a _, .loop b => a == b
  | .loop a, .alias b _ => a == b
  | .loop a, .loop b => a == b
  | _, _ => false

def hasClash : List (Node × Node) → Bool
  | [] => false
  | e :: rest => rest.any (fun f => e.1.clashes f.1) || hasClash rest

end Node

/-- A document with a bound on the length of the paths through it. -/
structure Tree where
  root : Node
  bound : Nat

end TenantQuery.Yaml
