import PayloadTypes.Rule.Basic
import PayloadTypes.Text.Case
/-!
# Rule tokens

A rule is flattened into tokens: texts without bars and the objects that
have no textual form. The tokens follow the leaves of the rule from left to
right, whatever its nesting. A token that is a text is a name in lower case
and, after the first colon, its parameters.
-/

namespace PayloadTypes.Rule

/-- The tokens of a text: its trimmed parts between bars that are not empty. -/
def textTokens (s : String) : List Rule :=
  (((Text.splitOn '|' s.toList).map Text.trim).filter fun p => !p.isEmpty).map
    fun p => .text (String.ofList p)

/-- The token of an object with a textual form, if that is not blank. -/
def formToken (form : String) : List Rule :=
  match Text.trim form.toList with
  | [] => []
  | cs => [.text (String.ofList cs)]

mutual
/-- The tokens of a rule. -/
def tokens : Rule → List Rule
  | .text s => textTokens s
  | .list rules => tokensOfList rules
  | .plain .null => []
  | rule =>
    match rule.textForm? with
    | some form => formToken form
    | none => [rule]
/-- The tokens of some rules, one after the other. -/
def tokensOfList : List Rule → List Rule
  | [] => []
  | r :: rs => tokens r ++ tokensOfList rs
end

/-- The lower case name of a token and what stands behind its first colon. -/
def nameAndParameters (token : String) : String × Option String :=
  match Text.cut? ':' token.toList with
  | some (name, parameters) =>
    (String.ofList (Text.lower (Text.trim name)), some (String.ofList parameters))
  | none => (String.ofList (Text.lower (Text.trim token.toList)), none)

/-- The name of a token that is a text. -/
def name? : Rule → Option String
  | .text s => some (nameAndParameters s).1
  | _ => none

/-- The names of the tokens, each once, in order. -/
def names (ts : List Rule) : List String := (ts.filterMap name?).eraseDups

end PayloadTypes.Rule
