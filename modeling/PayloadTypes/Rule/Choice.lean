import PayloadTypes.Rule.Token
import PayloadTypes.Text.Digit
import PayloadTypes.Text.Reader
import PayloadTypes.TypeText.Literal
import PayloadTypes.TypeText.Union
/-!
# Choices

The parameters of a choice are values with commas between them. A value may
stand in double quotes: there a comma is an ordinary character, a backslash
takes the next character as it is and two quotes are one. The first choice
among the tokens is the union of its values as literals.
-/

namespace PayloadTypes.Rule

open Text (Reader)
open Text.Reader

/-- The values from a place on, `current` being read of the next one already. -/
def choiceValuesFrom (quoted : Bool) (current : List Char) : List Char → List (List Char)
  | [] => [Text.trim current]
  -- nothing is behind the last character that it could be read together with
  | [c] =>
    if quoted then (if c = '"' then [Text.trim current] else [Text.trim (current ++ [c])])
    else if c = '"' ∧ Text.trim current = [] then [[]]
    else if c = ',' then [Text.trim current, []]
    else [Text.trim (current ++ [c])]
  | c :: d :: s =>
    if quoted then
      -- a backslash and a quote in front of another one take the character behind them
      if c = '\\' ∨ (c = '"' ∧ d = '"') then choiceValuesFrom true (current ++ [d]) s
      else if c = '"' then choiceValuesFrom false current (d :: s)
      else choiceValuesFrom true (current ++ [c]) (d :: s)
    -- a quote opens only where a value starts
    else if c = '"' ∧ Text.trim current = [] then choiceValuesFrom true [] (d :: s)
    else if c = ',' then Text.trim current :: choiceValuesFrom false [] (d :: s)
    else choiceValuesFrom false (current ++ [c]) (d :: s)

/-- The values that the parameters of a choice list. -/
def choiceValues (parameters : String) : List String :=
  (choiceValuesFrom false [] parameters.toList).map String.ofList

/-- A decimal number, its digits of any script, at the end of a line. -/
def numeral : Reader Unit := do
  let _ ← maybe (one fun c => c == '+' || c == '-')
  let whole ← many Text.isDigit
  match whole with
  | [] =>
    char '.'
    let _ ← many1 Text.isDigit
  | _ =>
    let _ ← maybe (do
      char '.'
      many Text.isDigit)
  let _ ← maybe (do
    let _ ← one fun c => c == 'e' || c == 'E'
    let _ ← maybe (one fun c => c == '+' || c == '-')
    many1 Text.isDigit)
  lastLineEnd

/-- A value as a literal: a truth value or a number is written bare. -/
def literal (v : String) : String :=
  let lowered := Text.lowerText v
  if lowered = "true" ∨ lowered = "false" then lowered
  else if (accepts? numeral v.toList).isSome then v
  else TypeText.quoteLiteral v

/-- The parameters of a token with a name. -/
def parametersNamed? (name : String) : Rule → Option String
  | .text s =>
    match nameAndParameters s with
    | (n, some parameters) => if n = name then some parameters else none
    | _ => none
  | _ => none

/-- The type of the first choice among the tokens. -/
def choiceType? (ts : List Rule) : Option String :=
  (ts.findSome? (parametersNamed? "in")).map fun parameters =>
    TypeText.union ((choiceValues parameters).map literal)

end PayloadTypes.Rule
