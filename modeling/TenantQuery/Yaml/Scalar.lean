import TenantQuery.Calendar.Zoned
import TenantQuery.Number.Decimal
import TenantQuery.Number.Word
import TenantQuery.Text.Base64
import TenantQuery.Yaml.Tag

namespace TenantQuery.Yaml

inductive Scalar where
  | null
  | flag (value : Bool)
  | int (value : Int)
  | double (value : Double)
  | time (value : ZonedTime)
  | text (value : String)
deriving DecidableEq, Inhabited

namespace Scalar

def infinity : Double := ⟨0x7ff0000000000000⟩

def negativeInfinity : Double := ⟨0xfff0000000000000⟩

def notANumber : Double := ⟨0x7ff8000000000001⟩

def words : List (String × Scalar) :=
  [("true", .flag true), ("True", .flag true), ("TRUE", .flag true),
   ("false", .flag false), ("False", .flag false), ("FALSE", .flag false),
   ("", .null), ("~", .null), ("null", .null), ("Null", .null), ("NULL", .null),
   (".nan", .double notANumber), (".NaN", .double notANumber), (".NAN", .double notANumber),
   (".inf", .double infinity), (".Inf", .double infinity), (".INF", .double infinity),
   ("+.inf", .double infinity), ("+.Inf", .double infinity), ("+.INF", .double infinity),
   ("-.inf", .double negativeInfinity), ("-.Inf", .double negativeInfinity),
   ("-.INF", .double negativeInfinity)]

def isDigit (c : Char) : Bool :=
  Decimal.isDigit c

def digitsIn (base : Nat) (digits : List Char) : Option Nat :=
  if digits.isEmpty then none
  else
    digits.foldl
      (fun n c => do
        let d ← Text.Hex.value? c
        if d < base then return (← n) * base + d else none)
      (some 0)

def readMagnitude : List Char → Option Nat
  | '0' :: 'x' :: ds | '0' :: 'X' :: ds => digitsIn 16 ds
  | '0' :: 'b' :: ds | '0' :: 'B' :: ds => digitsIn 2 ds
  | '0' :: 'o' :: ds | '0' :: 'O' :: ds => digitsIn 8 ds
  | ['0'] => some 0
  | '0' :: ds => digitsIn 8 ds
  | ds => digitsIn 10 ds

def hasSign (cs : List Char) : Bool :=
  cs.head? == some '-' || cs.head? == some '+'

def readInt (cs : List Char) : Option Int := do
  let (minus, digits) := Decimal.takeSign cs
  let n ← readMagnitude digits
  if minus then
    if n ≤ Word.half then return -(n : Int) else none
  else if n < Word.half then return n
  else if n < Word.count ∧ !hasSign cs then return n
  else none

def readDouble (cs : List Char) : Option Double :=
  Decimal.read? cs >>= Decimal.toDouble?

def separatesDigits : (afterDigit : Bool) → List Char → Bool
  | _, [] => true
  | afterDigit, '_' :: c :: rest => afterDigit && isDigit c && separatesDigits true rest
  | _, ['_'] => false
  | _, c :: rest => separatesDigits (isDigit c) rest

def readFractionOnly (cs : List Char) : Option Double :=
  if separatesDigits false cs then readDouble (cs.filter (· != '_')) else none

open Timestamp (readFour readOneOrTwo readMark readFraction readZone)

def readDate (cs : List Char) : Option (Calendar.Date × List Char) := do
  let (year, rest) ← readFour cs
  let (month, rest) ← readOneOrTwo (← readMark '-' rest)
  let (day, rest) ← readOneOrTwo (← readMark '-' rest)
  if 1 ≤ month ∧ month ≤ 12 ∧ 1 ≤ day ∧ day ≤ Calendar.daysInMonth year month then
    return (⟨year, month, day⟩, rest)
  none

def readClock (cs : List Char) : Option (Int × Int × List Char) := do
  let (hour, rest) ← readOneOrTwo cs
  let (minute, rest) ← readOneOrTwo (← readMark ':' rest)
  let (second, rest) ← readOneOrTwo (← readMark ':' rest)
  if 24 ≤ hour ∨ 60 ≤ minute ∨ 60 ≤ second then none
  let (nanos, rest) := readFraction rest
  return ((hour * 60 + minute) * 60 + second, nanos, rest)

def atSecond (d : Calendar.Date) (second nanos offset : Int) : ZonedTime :=
  ⟨Timestamp.atTime d 0 0 (second - offset) nanos, offset⟩

/-- A date, a date and a time in UTC after spaces, or a date and a time with a zone after a mark. -/
def readTime (cs : List Char) : Option ZonedTime := do
  let (date, rest) ← readDate cs
  match rest with
  | [] => return atSecond date 0 0 0
  | ' ' :: _ =>
    let (second, nanos, rest) ← readClock (rest.dropWhile (· == ' '))
    if rest.isEmpty then return atSecond date second nanos 0 else none
  | mark :: rest =>
    if mark ≠ 'T' ∧ mark ≠ 't' then none
    let (second, nanos, rest) ← readClock rest
    let (offset, rest) ← readZone rest
    if rest.isEmpty then return atSecond date second nanos offset else none

/-- Digits in base two or eight after a sign that follows the mark of the base. -/
def readSigned : List Char → Option Int
  | '0' :: 'b' :: sign :: ds => signed 2 sign ds
  | '0' :: 'o' :: sign :: ds => signed 8 sign ds
  | _ => none
where
  signed (base : Nat) (sign : Char) (ds : List Char) : Option Int := do
    let n ← digitsIn base ds
    if sign = '-' ∧ n ≤ Word.half then return -(n : Int)
    else if sign = '+' ∧ n < Word.half then return n
    else none

def readNumber (cs : List Char) : Option Scalar :=
  let plain := cs.filter (· != '_')
  ((readInt plain).map .int).or <|
    ((readDouble plain).map .double).or <|
      (readSigned plain).map .int

def resolve (s : String) : Scalar :=
  match words.lookup s with
  | some v => v
  | none =>
    match s.toList with
    | [] => .text s
    | c :: cs =>
      if c = '.' then
        match readFractionOnly (c :: cs) with
        | some x => .double x
        | none => .text s
      else if isDigit c || c == '+' || c == '-' then
        match readTime (c :: cs) with
        | some t => .time t
        | none => (readNumber (c :: cs)).getD (.text s)
      else .text s

def tag : Scalar → Tag
  | .null => .null
  | .flag _ => .bool
  | .int _ => .int
  | .double _ => .float
  | .time _ => .timestamp
  | .text _ => .str

def ofSigned (n : Int) : Option Scalar :=
  if Word.Holds n then (Decimal.toDouble? ⟨n < 0, n.natAbs, 0⟩).map .double else none

/-- The meaning of a text under a tag, none where they do not agree. -/
def read (tag : Tag) (s : String) : Option Scalar :=
  match tag, resolve s with
  | .str, _ | .merge, _ | .other _, _ => some (.text s)
  | .binary, _ => (Text.Base64.decode? s).map fun octets => .text (Text.ofOctets octets)
  | .float, .int n => ofSigned n
  | tag, v => if v.tag = tag then some v else none

end Scalar

end TenantQuery.Yaml
