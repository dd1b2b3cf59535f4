import PayloadTypes.Text.Reader
import PayloadTypes.Yaml.Cursor
/-!
# Values of plain scalars

A plain scalar is nothing, a truth value, an integer in one of five bases,
a floating point number, a moment, or else a text. A floating point number
needs a point, and its exponent a sign; underscores may stand between
digits. Two scalars are no values: the sign of a merge and the sign of
equality.
-/

namespace PayloadTypes.Yaml

open Text (Reader)
open Text.Reader

/-- The words that are values. -/
def wordValues : List (List String × Value) := [
  (["", "~", "null", "Null", "NULL"], .null),
  (["yes", "Yes", "YES", "true", "True", "TRUE", "on", "On", "ON"], .bool true),
  (["no", "No", "NO", "false", "False", "FALSE", "off", "Off", "OFF"], .bool false)]

/-- A sign, and whether it is a minus. -/
def sign : Reader Bool := do
  let c ← maybe (one fun c => c == '+' || c == '-')
  return c == some '-'

/-- Digits of a base, underscores among them. -/
def digitsOf (p : Char → Bool) : Reader (List Char) := do
  let s ← many1 fun c => p c || c == '_'
  return s.filter (· != '_')

/-- Decimal digits that start with one, underscores among them. -/
def decimalDigits : Reader (List Char) := do
  let c ← one Char.isDigit
  let s ← many fun c => c.isDigit || c == '_'
  return c :: s.filter (· != '_')

/-- The number that the digits of a base spell. -/
def inBase (base : Nat) (s : List Char) : Nat :=
  s.foldl (fun n c => base * n + (Json.hexDigit? c).getD 0) 0

/-- A part of a number in base sixty, behind its colon. -/
def sixtieth : Reader Nat := do
  char ':'
  let a ← one Char.isDigit
  let b ← maybe (one Char.isDigit)
  match b with
  | none => return a.toNat - 48
  | some b => if a.toNat < 54 then return inBase 10 [a, b] else fun _ => none

/-- The number that the digits of a base with a mark spell; there may be none but underscores. -/
def marked (base : Nat) (s : List Char) : Except ReadFault Nat :=
  if s.isEmpty then .error .noDigits else .ok (inBase base s)

/-- An integer without its sign, or the reason why it is not read. -/
def wholeNumber : Reader (Except ReadFault Nat) := fun s =>
  let whole {α : Type} (r : Reader α) : Reader α := do
    let a ← r
    atEnd
    return a
  let forms : List (Reader (Except ReadFault Nat)) := [
    whole (do
      text "0b"
      return marked 2 (← digitsOf fun c => c == '0' || c == '1')),
    whole (do
      char '0'
      return .ok (inBase 8 (← digitsOf fun c => '0' ≤ c && c ≤ '7'))),
    whole (do
      char '0'
      return .ok 0),
    whole (do
      text "0x"
      return marked 16 (← digitsOf fun c => (Json.hexDigit? c).isSome)),
    whole (do
      let ds ← decimalDigits
      if ds.head? = some '0' then fun _ => none
      let parts ← repeated sixtieth
      return (readDigits ds).map fun n => parts.foldl (fun n p => 60 * n + p) n)]
  forms.findSome? fun r => r s

/-- An exponent, its sign being there. -/
def exponent : Reader Int := do
  let _ ← one fun c => c == 'e' || c == 'E'
  let c ← one fun c => c == '+' || c == '-'
  let ds ← many1 Char.isDigit
  let n : Int := inBase 10 ds
  return if c = '-' then -n else n

/-- The digits behind a point, and the exponent. -/
def fraction : Reader (List Char × Option Int) := do
  char '.'
  let ds ← many fun c => c.isDigit || c == '_'
  let e ← maybe exponent
  return (ds.filter (· != '_'), e)

/-- The number of digits in front of and behind a point, scaled by an exponent. -/
def scaled (whole behind : List Char) (e : Int) : Float :=
  Decimal.ofDecimal false (inBase 10 (whole ++ behind)) (e - behind.length)

/-- A whole number as a floating point number, if it is not too large for one. -/
def powerOf (n : Nat) : Except ReadFault Float :=
  let x := Decimal.ofDecimal false n 0
  if x.isFinite then .ok x else .error .hugePower

/-- A floating point number in base sixty: its places are added up from the last one on, each
product and each sum rounded. -/
def sexagesimal (places : List Float) : Except ReadFault Float :=
  (places.reverse.foldlM (fun (sum, base) x => do
    return (sum + x * (← powerOf base), 60 * base)) ((0.0 : Float), 1)).map Prod.fst

/-- The number with a sign. -/
def signed (negative : Bool) (x : Float) : Float := if negative then -x else x

/-- A number with a point behind its first digits. -/
def pointed (negative : Bool) : Reader (Except ReadFault Float) := do
  let whole ← decimalDigits
  let parts ← repeated sixtieth
  let (behind, e) ← fraction
  match parts, e with
  | [], e => return .ok (signed negative (scaled whole behind (e.getD 0)))
  -- in base sixty the fraction belongs to the last place
  | _, none =>
    let between := parts.dropLast.map fun n => scaled (Text.natDigits n) [] 0
    let last := scaled (Text.natDigits (parts.getLastD 0)) behind 0
    return (sexagesimal (scaled whole [] 0 :: between ++ [last])).map (signed negative)
  | _, some _ => fun _ => none

/-- A number that starts with its point. -/
def pointFirst : Reader Float := do
  let (behind, e) ← fun s => if (s.tail.head?.map Char.isDigit).getD false then fraction s else none
  return scaled [] behind (e.getD 0)

/-- An infinity. -/
def infinity (negative : Bool) : Reader Float := do
  let _ ← oneOf [".inf", ".Inf", ".INF"]
  return if negative then -1.0 / 0.0 else 1.0 / 0.0

/-- Not a number. -/
def notANumber : Reader Float := do
  let _ ← oneOf [".nan", ".NaN", ".NAN"]
  return 0.0 / 0.0

/-- A floating point number with a sign or without. -/
def signedFloat : Reader (Except ReadFault Float) := do
  let negative ← sign
  pointed negative <|> do return .ok (← infinity negative)

/-- A floating point number. -/
def floatNumber : Reader (Except ReadFault Float) := do
  let x ← signedFloat <|> (do return .ok (← notANumber)) <|> do return .ok (← pointFirst)
  atEnd
  return x

/-- An integer. -/
def integer : Reader (Except ReadFault Int) := do
  let negative ← sign
  let n ← wholeNumber
  return n.map fun n => if negative then -(n : Int) else n

/-- So many decimal digits. -/
def digitsOfWidth : (width : Nat) → Reader (List Char)
  | 0 => pure []
  | n + 1 => do
    let c ← one Char.isDigit
    return c :: (← digitsOfWidth n)

/-- One decimal digit or two. -/
def shortDigits : Reader (List Char) := do
  let a ← one Char.isDigit
  let b ← maybe (one Char.isDigit)
  return a :: b.toList

/-- How many minutes a time is ahead of universal time. -/
def ahead : Reader Int :=
  (do
    char 'Z'
    return 0) <|> do
    let c ← one fun c => c == '+' || c == '-'
    let hours ← shortDigits
    let minutes ← maybe (do
      char ':'
      digitsOfWidth 2)
    let n : Int := 60 * inBase 10 hours + inBase 10 (minutes.getD [])
    return if c = '-' then -n else n

/-- The microseconds that the digits behind a point are; more than six are left out. -/
def microseconds (fraction : List Char) : Nat :=
  inBase 10 ((fraction ++ List.replicate 6 '0').take 6)

/-- A time, if the clock shows it, behind a day. -/
def clockTime : Reader (Option ClockTime) := do
  (do let _ ← one fun c => c == 'T' || c == 't') <|> (do let _ ← many1 isSpace)
  let hour ← shortDigits
  char ':'
  let minute ← digitsOfWidth 2
  char ':'
  let second ← digitsOfWidth 2
  let fraction ← maybe (do
    char '.'
    many Char.isDigit)
  let zone ← maybe (do
    let _ ← many isSpace
    ahead)
  return ClockTime.of? (inBase 10 hour) (inBase 10 minute) (inBase 10 second)
    (microseconds (fraction.getD [])) zone

/-- A moment. A day alone is written with all its digits. -/
def moment : Reader (Except ReadFault Moment) := do
  let year ← digitsOfWidth 4
  char '-'
  let month ← shortDigits
  char '-'
  let day ← shortDigits
  let time ← maybe clockTime
  atEnd
  let onDay := Day.of? (inBase 10 year) (inBase 10 month) (inBase 10 day)
  let found : Option Moment ←
    match time with
    | some t => pure (onDay.bind fun d => t.map (.time d))
    | none =>
      if month.length = 2 ∧ day.length = 2 then pure (onDay.map .day) else fun _ => none
  return match found with
    | some m => .ok m
    | none => .error .noMoment

/-- What a scalar stands for. -/
inductive Scalar where
  /-- A value, or the reason why there is none. -/
  | value (v : Except ReadFault Value)
  /-- As a key, the map takes in another one; else no value. -/
  | merge
  /-- As a key the sign itself; else no value. -/
  | equals

/-- The text of the sign of equality. -/
def equalsSign : String := "="

/-- The text of the sign of a merge. -/
def mergeSign : String := "<<"

/-- What a plain scalar stands for. -/
def Scalar.ofPlain (s : String) : Scalar :=
  if s = equalsSign then .equals
  else if s = mergeSign then .merge
  else
    match wordValues.find? fun w => w.1.contains s with
    | some w => .value (.ok w.2)
    | none =>
      match accepts? floatNumber s.toList with
      | some x => .value (x.map Value.float)
      | none =>
        match accepts? integer s.toList with
        | some i => .value (i.map Value.int)
        | none =>
          match accepts? moment s.toList with
          | some m => .value (m.map Value.moment)
          | none => .value (.ok (.text s))

end PayloadTypes.Yaml
