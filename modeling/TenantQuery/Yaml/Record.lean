import TenantQuery.Yaml.Reader
import TenantQuery.Yaml.Value

namespace TenantQuery.Yaml

structure Progress where
  -- No path through the document is longer.
  bound : Nat
  nodes : Nat := 0
  -- How many of the nodes stand elsewhere and are read through an alias.
  aliased : Nat := 0
  -- How many aliases lead to the place.
  aliases : Nat := 0

namespace Progress

/-- More than 99 of 100 nodes are aliased, in a document of more than 400000 nodes fewer, down to one
in ten from 4000000 nodes on. A short document is never too much. -/
def isExcessive (p : Progress) : Bool :=
  100 < p.aliased && 1000 < p.nodes &&
    if p.nodes ≤ 400000 then 99 * p.nodes < 100 * p.aliased
    else if 4000000 ≤ p.nodes then p.nodes < 10 * p.aliased
    else p.nodes * (99 * 3600000 - 89 * (p.nodes - 400000)) < 100 * 3600000 * p.aliased

end Progress

abbrev Reading := StateT Progress Option

namespace Reading

def visit : Reading Unit := do
  let p ← get
  let p := { p with nodes := p.nodes + 1, aliased := p.aliased + if p.aliases = 0 then 0 else 1 }
  if p.isExcessive then failure else set p

def through (read : Reading α) : Reading α := do
  visit
  modify fun p => { p with aliases := p.aliases + 1 }
  let a ← read
  modify fun p => { p with aliases := p.aliases - 1 }
  return a

def atNode (read : Node → Reading α) : Node → Reading α
  | .alias _ target => through (atNode read target)
  | .loop _ => failure
  | n => do
    visit
    read n

def meaning (text : String) (tag : Tag) : Reading Scalar :=
  Scalar.read tag text

def scalar (read : String → Scalar → Reading α) : Node → Reading α :=
  atNode fun
    | .scalar text tag => do read text (← meaning text tag)
    | _ => failure

end Reading

open Reading

structure Target (σ : Type) where
  -- The key of an entry, none for an entry that is passed over.
  key : Node → Reading (Option Scalar)
  put : σ → Scalar → Node → Reading σ

abbrev Hidden := Option (List Scalar)

def readKey : Node → Reading Scalar :=
  scalar fun _ v => pure v

def readKeys : List (Node × Node) → Reading (List Scalar)
  | [] => return []
  | e :: rest => do return (← readKey e.1) :: (← readKeys rest)

namespace Target

def takeOwn (t : Target σ) : Hidden → σ → List (Node × Node) → Reading (Hidden × σ)
  | hidden, s, [] => return (hidden, s)
  | hidden, s, (key, value) :: rest => do
    if key.isMerge then t.takeOwn hidden s rest
    else
      match ← t.key key with
      | none => t.takeOwn hidden s rest
      | some k =>
        if (hidden.getD []).any (·.sameKey k) then t.takeOwn hidden s rest
        else t.takeOwn (hidden.map (k :: ·)) (← t.put s k value) rest

mutual

/-- The entries of a mapping, or of the mappings of a list, and of those that they take over. -/
def take (t : Target σ) : Node → Hidden → σ → Reading (Hidden × σ)
  | .mapping entries, hidden, s => do
    visit
    if Node.hasClash entries then failure
    let (hidden, s) ← t.takeOwn hidden s entries
    t.takeMerged entries entries hidden s
  | .alias _ target, hidden, s =>
    if target.isMapping then through (t.take target hidden s) else failure
  | .sequence items, hidden, s => t.takeAll items hidden s
  | _, _, _ => failure

def takeAll (t : Target σ) : List Node → Hidden → σ → Reading (Hidden × σ)
  | [], hidden, s => return (hidden, s)
  | item :: items, hidden, s => do
    if item.isSequence then failure
    let (hidden, s) ← t.take item hidden s
    t.takeAll items hidden s

/-- What a mapping with the entries `own` takes over. Only inside of a mapping that is taken over
itself, keys stay hidden afterwards. -/
def takeMerged (t : Target σ) (own : List (Node × Node)) :
    List (Node × Node) → Hidden → σ → Reading (Hidden × σ)
  | [], hidden, s => return (hidden, s)
  | (key, value) :: rest, hidden, s =>
    if key.isMerge then
      match hidden with
      | some _ => t.take value hidden s
      | none => do
        let keys ← readKeys own
        let (_, s) ← t.take value (some keys) s
        return (none, s)
    else t.takeMerged own rest hidden s

end

def read (t : Target σ) (start : σ) (n : Node) : Reading σ := do
  if !n.isMapping then failure
  return (← t.take n none start).2

end Target

/-- A key that is read as a text. An entry with a null key is passed over. -/
def readTextKey : Node → Reading (Option Scalar) :=
  scalar fun text v =>
    match v with
    | .null => pure none
    | .text s => pure (some (.text s))
    | _ => pure (some (.text text))

def mapTarget (read : Node → Reading Value) (texts : Bool) : Target (List (Scalar × Value)) where
  key := if texts then readTextKey else fun n => do return some (← readKey n)
  put := fun es key n => do return Value.put key (← read n) es

def readValueTo : (fuel : Nat) → Node → Reading Value
  | 0, _ => failure
  | fuel + 1, n =>
    match n with
    | .alias _ target => through (readValueTo fuel target)
    | .loop _ => failure
    | .scalar text tag => do
      visit
      return .scalar (← meaning text tag)
    | .sequence items => do
      visit
      return .list (← items.mapM (readValueTo fuel))
    | .mapping es => do
      let texts := es.all fun e => e.1.isText
      return .map (← (mapTarget (readValueTo fuel) texts).read [] (.mapping es))

def readValue (n : Node) : Reading Value := do
  readValueTo (← get).bound n

def readText : Node → Reading (Option String) :=
  scalar fun text v =>
    match v with
    | .null => pure none
    | .text s => pure (some s)
    | _ => pure (some text)

def flagWord? (s : String) : Option Bool :=
  if ["y", "Y", "yes", "on"].contains s then some true
  else if ["n", "N", "no", "off"].contains s then some false
  else none

def readFlag : Node → Reading (Option Bool) :=
  scalar fun _ v =>
    match v with
    | .null => pure none
    | .flag b => pure (some b)
    | .text s => (flagWord? s).map some
    | _ => failure

def truncate (x : Double) : Int :=
  let n : Int := x.num / x.den
  if x.negative then -n else n

/-- The word for a number up to 2^63; one that no word holds is read as the least word. -/
def wordOf (x : Double) : Option Int :=
  if x.isFinite then
    if Word.Holds (truncate x) then some (truncate x)
    else if truncate x ≤ Word.half then some (-(Word.half : Int))
    else none
  else if x.negative && !x.isNaN then some (-(Word.half : Int))
  else none

def readInt : Node → Reading (Option Int) :=
  scalar fun _ v =>
    match v with
    | .null => pure none
    | .int n => if n < Word.half then pure (some n) else failure
    | .double x => (wordOf x).map some
    | _ => failure

def orNull (read : Node → Reading α) : Node → Reading (Option α)
  | .alias _ target => through (orNull read target)
  | .scalar text tag => do
    visit
    if (← meaning text tag) = .null then return none else failure
  | n => do return some (← read n)

def readList (item : Node → Reading (Option α)) : Node → Reading (Option (List α)) :=
  orNull fun
    | .sequence items => do
      visit
      return (← items.mapM item).filterMap id
    | _ => failure

def readTexts : Node → Reading (Option (List String)) :=
  readList readText

def readEntries : Node → Reading (Option (List (String × Value))) :=
  orNull fun n => do
    let es ← (mapTarget readValue true).read [] n
    return es.map fun e => (e.1.render, e.2)

structure Member (σ : Type) where
  name : String
  update : σ → Node → Reading σ

namespace Member

def of (name : String) (read : Node → Reading (Option α)) (set : σ → α → σ) : Member σ :=
  ⟨name, fun s n => do return ((← read n).map (set s)).getD s⟩

def fresh (name : String) (read : Node → Reading α) (set : σ → α → σ) : Member σ :=
  ⟨name, fun s n => do return set s (← read n)⟩

end Member

structure Filled (σ : Type) where
  record : σ
  names : List String := []

def recordTarget (fields : List (Member σ)) : Target (Filled σ) where
  key := readTextKey
  put := fun s key n => do
    let f ← fields.find? fun f => f.name = key.render
    if s.names.contains f.name then failure
    return ⟨← f.update s.record n, f.name :: s.names⟩

/-- A mapping as a record; null is read as none. -/
def readRecord (fields : List (Member σ)) (start : σ) : Node → Reading (Option σ) :=
  orNull fun n => do return (← (recordTarget fields).read { record := start } n).record

def Tree.read (t : Tree) (read : Node → Reading α) : Except Error α :=
  match (read t.root).run { bound := t.bound, nodes := 1 } with
  | some (a, _) => .ok a
  | none => .error .badYaml

end TenantQuery.Yaml
