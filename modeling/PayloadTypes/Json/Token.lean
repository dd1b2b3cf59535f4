import PayloadTypes.Data.ReadFault
import PayloadTypes.Data.Value
import PayloadTypes.Text.Reader
import PayloadTypes.Text.Surrogate
/-!
# Tokens of JSON texts

A JSON text is a row of tokens with white space between them: brackets,
commas, colons, and the scalar values. Not-a-number and the infinities are
values too. A string holds no raw control character; its escapes of four
digits are units of which two surrogates in a row are one character. Where
the text cannot be cut further, the last token is a fault.
-/

namespace PayloadTypes.Json

open Text (Reader isHighSurrogate isLowSurrogate ofSurrogates)
open Text.Reader

/-- What a JSON text is made of. -/
inductive Token where
  /-- An opening square bracket. -/
  | openList
  /-- A closing square bracket. -/
  | closeList
  /-- An opening curly brace. -/
  | openMap
  /-- A closing curly brace. -/
  | closeMap
  /-- A comma. -/
  | comma
  /-- A colon. -/
  | colon
  /-- A number, a string, a truth value or nothing. -/
  | scalar (v : Value)
  /-- What stands in the place of a scalar and is none. -/
  | fault (f : ReadFault)

/-- The white space that may stand between tokens. -/
def isSpace (c : Char) : Bool := c == ' ' || c == '\t' || c == '\n' || c == '\r'

/-- The value of a hexadecimal digit. -/
def hexDigit? (c : Char) : Option Nat :=
  if c.isDigit then some (c.toNat - '0'.toNat)
  else if 'a' ≤ c ∧ c ≤ 'f' then some (c.toNat - 'a'.toNat + 10)
  else if 'A' ≤ c ∧ c ≤ 'F' then some (c.toNat - 'A'.toNat + 10)
  else none

/-- The number that hexadecimal digits spell. -/
def hexNumber? (s : List Char) : Option Nat :=
  s.foldlM (fun n c => (hexDigit? c).map (16 * n + ·)) 0

/-- The character that an escape of one letter stands for. -/
def escapeLetter? (c : Char) : Option Char :=
  match c with
  | '"' => some '"'
  | '\\' => some '\\'
  | '/' => some '/'
  | 'b' => some '\x08'
  | 'f' => some '\x0c'
  | 'n' => some '\n'
  | 'r' => some '\r'
  | 't' => some '\t'
  | _ => none

/-- The next unit of a string, a character or an escape, and how many characters behind the first
one belong to it. -/
def unit? : List Char → Option (Nat × Nat)
  | '\\' :: 'u' :: a :: b :: c :: d :: _ => (hexNumber? [a, b, c, d]).map (·, 5)
  | ['\\'] => none
  | '\\' :: c :: _ => (escapeLetter? c).map fun d => (d.toNat, 1)
  | c :: _ => if c = '"' ∨ c.toNat < 32 then none else some (c.toNat, 0)
  | [] => none

/-- The units of a string up to its closing quote, `skip` characters being read already. -/
def unitsFrom (skip : Nat) : List Char → Option (List Nat × List Char)
  | [] => none
  | c :: s =>
    match skip with
    | n + 1 => unitsFrom n s
    | 0 =>
      if c = '"' then some ([], s)
      else
        match unit? (c :: s) with
        | some (u, n) => (unitsFrom n s).map fun p => (u :: p.1, p.2)
        | none => none

/-- The character of one unit; a surrogate alone becomes U+FFFD. -/
def ofUnit (u : Nat) : Char :=
  if isHighSurrogate u || isLowSurrogate u then '\uFFFD' else Char.ofNat u

/-- The characters of units. -/
def ofUnits : List Nat → List Char
  | [] => []
  | [u] => [ofUnit u]
  | u :: v :: us =>
    if isHighSurrogate u && isLowSurrogate v then ofSurrogates u v :: ofUnits us
    else ofUnit u :: ofUnits (v :: us)

/-- A string in its quotes. -/
def string : Reader String := do
  char '"'
  let us ← unitsFrom 0
  return String.ofList (ofUnits us)

/-- The digits of a whole number: zero, or digits that do not start with it. -/
def wholeDigits : Reader (List Char) := fun s =>
  match s with
  | '0' :: r => some (['0'], r)
  | _ => many1 Char.isDigit s

/-- The digits behind a point. -/
def fraction : Reader (List Char) := do
  char '.'
  many1 Char.isDigit

/-- An exponent. -/
def exponent : Reader Int := do
  let _ ← one fun c => c == 'e' || c == 'E'
  let sign ← maybe (one fun c => c == '+' || c == '-')
  let ds ← many1 Char.isDigit
  let n : Int := Text.digitsToNat ds
  return if sign = some '-' then -n else n

/-- The token of an integer. -/
def Token.ofInteger (negative : Bool) (digits : List Char) : Token :=
  match readDigits digits with
  | .ok n => .scalar (.int (if negative then -(n : Int) else n))
  | .error f => .fault f

/-- A number: an integer unless it has a fraction or an exponent. -/
def number : Reader Token := do
  let minus ← maybe (char '-')
  let whole ← wholeDigits
  let frac ← maybe fraction
  let exp ← maybe exponent
  match frac, exp with
  | none, none => return .ofInteger minus.isSome whole
  | _, _ =>
    let f := frac.getD []
    return .scalar (.float (Decimal.ofDecimal minus.isSome (Text.digitsToNat (whole ++ f))
      (exp.getD 0 - f.length)))

/-- The words that are values. -/
def wordValues : List (String × Value) := [
  ("null", .null), ("true", .bool true), ("false", .bool false), ("NaN", .float (0.0 / 0.0)),
  ("Infinity", .float (1.0 / 0.0)), ("-Infinity", .float (-1.0 / 0.0))]

/-- A word that is a value. -/
def word : Reader Value := fun s =>
  wordValues.findSome? fun w => (text w.1 s).map fun p => (w.2, p.2)

/-- The token that one character is. -/
def punctuation? (c : Char) : Option Token :=
  if c = '[' then some .openList
  else if c = ']' then some .closeList
  else if c = '\x7b' then some .openMap
  else if c = '\x7d' then some .closeMap
  else if c = ',' then some .comma
  else if c = ':' then some .colon
  else none

/-- One token, or one character of white space, which is none. -/
def token : Reader (Option Token) := fun s =>
  match s with
  | [] => none
  | c :: r =>
    if isSpace c then some (none, r)
    else
      match punctuation? c with
      | some t => some (some t, r)
      | none =>
        ((do return some (.scalar (.text (← string)))) <|> (do return some (← number)) <|>
          (do return some (.scalar (← word))) : Reader (Option Token)) (c :: r)

/-- The tokens of a text, at most one for each round. -/
def tokensFrom : (rounds : Nat) → List Char → List Token
  | _, [] => []
  | 0, _ => []
  | n + 1, s =>
    match token s with
    | some (t, rest) => t.toList ++ tokensFrom n rest
    | none => [.fault .malformed]

/-- The tokens of a text; each takes a character at least. -/
def tokens (s : List Char) : List Token := tokensFrom s.length s

end PayloadTypes.Json
