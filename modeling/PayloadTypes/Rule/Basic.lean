import PayloadTypes.Data.Value
import PayloadTypes.Text.Cut
/-!
# Rules

A rule says what a value of a field must be like. It is a text, an object
that names a type, lists choices or calls a rule by name, or a list of
rules. Some objects have a textual form and stand for it.
-/

namespace PayloadTypes

/-- A rule as it is declared. -/
inductive Rule where
  /-- A text of rules with bars between them. -/
  | text (s : String)
  /-- Several rules. -/
  | list (rules : List Rule)
  /-- A case of an enum. -/
  | enum (type : String)
  /-- A value of an enum that is a class. -/
  | enumValue (type : String)
  /-- One of some values. -/
  | choice (values : List String)
  /-- A rule by its name. -/
  | call (name : String) (parameters : List String)
  /-- A rule that was not understood, as it was written. -/
  | unread (source : String)
  /-- An object that names a type with what may not even be a text. -/
  | constraint (reference : Value)
  /-- An object that fails to name its type. -/
  | broken
  /-- A value that is no rule. -/
  | plain (v : Value)
deriving Inhabited

namespace Rule

/-- The rule names a type, or should. -/
def isConstraint : Rule → Bool
  | .enum _ | .enumValue _ | .constraint _ | .broken => true
  | _ => false

/-- The type that a rule names, as it names it. -/
def typeReference? : Rule → Option Value
  | .enum t | .enumValue t => if t = "" then none else some (.text t)
  | .constraint v => some v
  | _ => none

/-- A scalar as a parameter or a choice. -/
def scalarText : Value → String
  | .bool b => if b then "true" else "false"
  | .null => ""
  | v => String.ofList v.plain

/-- A choice in quotes, its own quotes doubled. -/
def quotedChoice (v : String) : List Char :=
  '"' :: Text.escapeWith '"' '"' v.toList ++ ['"']

/-- The text that an object stands for. -/
def textForm? : Rule → Option String
  | .choice values =>
    some ("in:" ++ String.ofList (Text.join [','] (values.map quotedChoice)))
  | .call name [] => some name
  | .plain (.moment m) => some (String.ofList m.text)
  | .call name parameters => some (name ++ ":" ++ ",".intercalate parameters)
  | _ => none

end Rule

end PayloadTypes
