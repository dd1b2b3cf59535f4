import PayloadTypes.Data.ReadFault
import PayloadTypes.Data.Value
import PayloadTypes.Text.Case
import PayloadTypes.Text.Reader
/-!
# Scalar literals

A scalar is a quoted string, a number, a truth value or nothing. In a
string only the backslash and the string's own quote are escaped. An
integer with too many digits is a fault.
-/

namespace PayloadTypes.Source

open Text (Reader)
open Text.Reader

/-- The text that the inside of a string in quotes `q` stands for. -/
def unescaped (q : Char) (inner : List Char) : List Char :=
  Text.replacePair '\\' '\\' '\\' (Text.replacePair '\\' q q inner)

/-- The text of a string in quotes `q`. -/
def stringLiteral? (q : Char) (s : List Char) : Option String :=
  ((Text.after? [q] s).bind (Text.before? [q])).map fun inner =>
    String.ofList (unescaped q inner)

/-- A number, or the reason why it is not read: an integer unless it has a fraction. -/
def number : Reader (Except ReadFault Value) := do
  let sign ← maybe (one fun c => c == '+' || c == '-')
  let whole ← many1 Text.isDigit
  let fraction ← maybe (do
    char '.'
    many1 Text.isDigit)
  let negative := sign == some '-'
  let value : Except ReadFault Value :=
    match fraction with
    | none => (readDigits whole).map fun n => .int (if negative then -(n : Int) else n)
    | some ds =>
      let digits := Text.digitsToNat (whole ++ ds)
      .ok (.float (Decimal.ofDecimal negative digits (-(ds.length : Int))))
  -- nothing may stand behind the number
  fun s => if s.isEmpty then some (value, s) else none

/-- The words that are scalars, in lower case. -/
def wordScalars : List (String × Value) :=
  [("true", .bool true), ("false", .bool false), ("null", .null)]

/-- The scalar that an expression is, if it is one. -/
def scalar? (expression : List Char) : Except ReadFault (Option Value) :=
  let s := Text.trim expression
  match (stringLiteral? '\'' s).orElse fun _ => stringLiteral? '"' s with
  | some t => .ok (some (.text t))
  | none =>
    match accepts? number s with
    | some n => n.map some
    | none => .ok (wordScalars.lookup (String.ofList (Text.lower s)))

end PayloadTypes.Source
