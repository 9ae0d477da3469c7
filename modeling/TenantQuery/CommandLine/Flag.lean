import TenantQuery.Number.Decimal
import TenantQuery.Number.Word
import TenantQuery.Text.Quoted

namespace TenantQuery.CommandLine

inductive UsageError where
  | badSyntax (word : String)
  | unknownFlag (name : String)
  | unknownLetter (letter : Char) (letters : String)
  | noValue (word : String)
  | noLetterValue (letter : Char) (letters : String)
  | badValue (value label reason : String)
  | tooFewArguments (received : Nat)
  | notOneArgument (received : Nat)
  | unknownCommand (word path : String) (similar : List String)
  | badFormat (format : String)
deriving DecidableEq

def quoteLetter (c : Char) : String :=
  let spelled :=
    if c = '\x27' then ['\\', c] else if c = '"' then [c] else Text.Quoted.spell c
  String.ofList ('\x27' :: (spelled ++ ['\x27']))

def similarText (similar : List String) : String :=
  if similar.isEmpty then ""
  else "\n\nDid you mean this?\n" ++ String.join (similar.map fun s => "\t" ++ s ++ "\n")

def UsageError.message : UsageError → String
  | .badSyntax word => "bad flag syntax: " ++ word
  | .unknownFlag name => "unknown flag: --" ++ name
  | .unknownLetter letter letters =>
    "unknown shorthand flag: " ++ quoteLetter letter ++ " in -" ++ letters
  | .noValue word => "flag needs an argument: " ++ word
  | .noLetterValue letter letters =>
    "flag needs an argument: " ++ quoteLetter letter ++ " in -" ++ letters
  | .badValue value label reason =>
    "invalid argument " ++ Text.quote value ++ " for " ++ Text.quote label ++ " flag: " ++ reason
  | .tooFewArguments received =>
    "requires at least 1 arg(s), only received " ++ toString received
  | .notOneArgument received => "accepts 1 arg(s), received " ++ toString received
  | .unknownCommand word path similar =>
    "unknown command " ++ Text.quote word ++ " for " ++ Text.quote path ++ similarText similar
  | .badFormat format => "invalid format " ++ Text.quote format ++ ": must be one of [text json]"

inductive FlagKind where
  | text
  | number
  | switch
deriving DecidableEq

structure Flag where
  name : String
  letter : Option Char := none
  kind : FlagKind := .text
deriving DecidableEq

namespace Flag

def label (f : Flag) : String :=
  match f.letter with
  | some c => "-" ++ String.singleton c ++ ", --" ++ f.name
  | none => "--" ++ f.name

end Flag

def switch? (s : String) : Option Bool :=
  if ["1", "t", "T", "TRUE", "true", "True"].contains s then some true
  else if ["0", "f", "F", "FALSE", "false", "False"].contains s then some false
  else none

def baseOf : List Char → Nat × List Char
  | '0' :: c :: d :: rest =>
    if c = 'b' ∨ c = 'B' then (2, d :: rest)
    else if c = 'o' ∨ c = 'O' then (8, d :: rest)
    else if c = 'x' ∨ c = 'X' then (16, d :: rest)
    else (8, c :: d :: rest)
  | '0' :: rest => (8, rest)
  | cs => (10, cs)

def digit? (base : Nat) (c : Char) : Option Nat :=
  let value :=
    if Decimal.isDigit c then some (c.toNat - 48)
    else if 'a' ≤ c ∧ c ≤ 'z' then some (c.toNat - 87)
    else if 'A' ≤ c ∧ c ≤ 'Z' then some (c.toNat - 55)
    else none
  value.filter (· < base)

inductive NumberFault where
  | malformed
  | range
deriving DecidableEq

def NumberFault.text : NumberFault → String
  | .malformed => "invalid syntax"
  | .range => "value out of range"

def magnitude (base : Nat) : (n : Nat) → List Char → Except NumberFault Nat
  | n, [] => .ok n
  | n, '_' :: rest => magnitude base n rest
  | n, c :: rest =>
    match digit? base c with
    | none => .error .malformed
    | some d => if Word.count ≤ base * n + d then .error .range else magnitude base (base * n + d) rest

inductive Before where
  | start
  | digit
  | underscore
  | other
deriving DecidableEq

def underscoresFit (hex : Bool) : Before → List Char → Bool
  | before, [] => before != .underscore
  | before, c :: rest =>
    if Decimal.isDigit c || (hex && (digit? 16 c).isSome) then underscoresFit hex .digit rest
    else if c = '_' then before == .digit && underscoresFit hex .underscore rest
    else before != .underscore && underscoresFit hex .other rest

def checkUnderscores : List Char → Bool
  | '0' :: c :: rest =>
    if c = 'b' ∨ c = 'B' ∨ c = 'o' ∨ c = 'O' ∨ c = 'x' ∨ c = 'X' then
      underscoresFit (c = 'x' ∨ c = 'X') .digit rest
    else underscoresFit false .start ('0' :: c :: rest)
  | cs => underscoresFit false .start cs

def number (s : String) : Except NumberFault Int :=
  let (minus, cs) := Decimal.takeSign s.toList
  if cs.isEmpty then .error .malformed
  else do
    let (base, digits) := baseOf cs
    let n ← magnitude base 0 digits
    if cs.contains '_' && !checkUnderscores cs then throw .malformed
    if minus then if Word.half < n then throw .range else return -n
    else if Word.half ≤ n then throw .range else return n

def Flag.check (f : Flag) (value : String) : Except UsageError Unit :=
  match f.kind with
  | .text => .ok ()
  | .switch =>
    if (switch? value).isSome then .ok ()
    else .error (.badValue value f.label
      ("strconv.ParseBool: parsing " ++ Text.quote value ++ ": invalid syntax"))
  | .number =>
    match number value with
    | .ok _ => .ok ()
    | .error fault =>
      .error (.badValue value f.label
        ("strconv.ParseInt: parsing " ++ Text.quote value ++ ": " ++ fault.text))

/-- The flags that have been set, in order, and the other words. -/
structure Settings where
  assigned : List (String × String) := []
  arguments : List String := []
deriving DecidableEq

namespace Settings

def assign (s : Settings) (more : List (String × String)) : Settings :=
  { s with assigned := s.assigned ++ more }

def text (s : Settings) (name default : String) : String :=
  ((s.assigned.filter fun a => a.1 = name).getLast?.map (·.2)).getD default

def texts (s : Settings) (name : String) : List String :=
  (s.assigned.filter fun a => a.1 = name).map (·.2)

def flag (s : Settings) (name : String) : Bool :=
  (switch? (s.text name "false")).getD false

def number (s : Settings) (name : String) : Int :=
  match CommandLine.number (s.text name "0") with
  | .ok n => n
  | .error _ => 0

end Settings

/-- What one word sets, and whether the next word is the value. -/
structure Reading where
  assigned : List (String × String)
  takesNext : Bool := false

def Flag.set (f : Flag) (value : String) (takesNext : Bool) : Except UsageError Reading := do
  f.check value
  return ⟨[(f.name, value)], takesNext⟩

def readLong (flags : List Flag) (word : String) (next : Option String) :
    Except UsageError Reading :=
  let body := word.toList.drop 2
  let name := String.ofList (body.takeWhile (· != '='))
  if body.head? = none ∨ body.head? = some '-' ∨ body.head? = some '=' then
    .error (.badSyntax word)
  else
    match flags.find? fun f => f.name = name with
    | none => .error (.unknownFlag name)
    | some f =>
      match body.dropWhile (· != '='), f.kind, next with
      | '=' :: value, _, _ => f.set (String.ofList value) false
      | _, .switch, _ => f.set "true" false
      | _, _, some value => f.set value true
      | _, _, none => .error (.noValue word)

def firstOctet (cs : List Char) : Char :=
  match (String.ofList cs).toUTF8.toList with
  | b :: _ => Char.ofNat b.toNat
  | [] => ' '

/-- Letters behind one dash. Switches can stand together; another flag takes the rest of the word,
or else the next word. -/
def readLetters (flags : List Flag) (next : Option String) :
    List Char → Except UsageError Reading
  | [] => .ok ⟨[], false⟩
  | c :: rest =>
    if "test.".toList.isPrefixOf (c :: rest) then .ok ⟨[], false⟩
    else
      match flags.find? fun f => f.letter = some c with
      | none => .error (.unknownLetter (firstOctet (c :: rest)) (String.ofList (c :: rest)))
      | some f =>
        match f.kind, rest, next with
        | _, '=' :: v :: vs, _ => f.set (String.ofList (v :: vs)) false
        | .switch, _, _ => do
          let first ← f.set "true" false
          let others ← readLetters flags next rest
          return ⟨first.assigned ++ others.assigned, others.takesNext⟩
        | _, v :: vs, _ => f.set (String.ofList (v :: vs)) false
        | _, [], some value => f.set value true
        | _, [], none => .error (.noLetterValue c (String.ofList (c :: rest)))

def isArgument (word : String) : Bool :=
  word = "-" || word.toList.head? != some '-'

def readWord (flags : List Flag) (word : String) (next : Option String) :
    Except UsageError Reading :=
  match word.toList with
  | '-' :: '-' :: _ => readLong flags word next
  | _ :: letters => readLetters flags next letters
  | [] => .ok ⟨[], false⟩

def readWords (flags : List Flag) : Settings → List String → Except UsageError Settings
  | s, [] => .ok s
  | s, word :: words =>
    if isArgument word then readWords flags { s with arguments := s.arguments ++ [word] } words
    else if word = "--" then .ok { s with arguments := s.arguments ++ words }
    else
      match readWord flags word words.head? with
      | .error e => .error e
      | .ok reading =>
        match words with
        | [] => .ok (s.assign reading.assigned)
        | next :: rest =>
          if reading.takesNext then readWords flags (s.assign reading.assigned) rest
          else readWords flags (s.assign reading.assigned) (next :: rest)

end TenantQuery.CommandLine
