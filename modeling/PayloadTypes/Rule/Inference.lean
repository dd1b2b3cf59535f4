import PayloadTypes.Rule.Choice
import PayloadTypes.Symbols
import PayloadTypes.TypeText.ArrayType
/-!
# Types of rules

The type that tokens give a field: the first enum they name, else the first
choice, else an array, else the first group that one of their names belongs
to. A field with item rules is an array of what those say.
-/

namespace PayloadTypes.Rule

/-- The names that make a field an array. -/
def arrayNames : List String := ["array", "list"]

/-- Groups of names and the types they give, the first match deciding. -/
def groups : List (List String × String) := [
  (["boolean", "accepted", "declined"], "boolean"),
  (["integer", "numeric", "decimal", "digits", "digits_between"], "number"),
  (["file", "image", "mimes", "mimetypes"], "File"),
  (["json"], "Record<string, unknown>"),
  (["string", "email", "uuid", "ulid", "date", "date_format", "timezone", "ip", "mac_address",
    "url", "active_url", "regex", "alpha", "alpha_num", "alpha_dash", "starts_with", "ends_with",
    "password", "current_password"], "string")]

/-- The reference of a token to an enum, as it is written. -/
def writtenReference? : Rule → Option String
  | .text s =>
    (parametersNamed? "enum" (.text s)).map fun parameters =>
      -- behind the first comma nothing is read
      ((Text.cut? ',' parameters.toList).map fun p => String.ofList p.1).getD parameters
  | rule =>
    match rule.typeReference? with
    | some (.text t) => some t
    | _ => none

/-- The full name of the enum that a token names. -/
def enumReference? (token : Rule) : Option String :=
  match writtenReference? token with
  | some r => if fullName r = "" then none else some (fullName r)
  | none => none

/-- The full name of the first enum among the tokens. -/
def firstEnum? (ts : List Rule) : Option String := ts.findSome? enumReference?

/-- The type of the first enum among the tokens. -/
def enumType? (ts : List Rule) : Option String :=
  (firstEnum? ts).map fun r => shortName (fullName r)

/-- The type that an enum or a choice among the tokens fixes. -/
def fixedType? (ts : List Rule) : Option String := enumType? ts <|> choiceType? ts

/-- Some token has a name of the group. -/
def hasName (group : List String) (ts : List Rule) : Bool := (names ts).any group.contains

/-- The type of the first group that a token belongs to. -/
def groupType? (ts : List Rule) : Option String :=
  (groups.find? fun g => hasName g.1 ts).map Prod.snd

/-- The type of tokens without item rules. -/
def itemType? (ts : List Rule) : Option String :=
  fixedType? ts <|>
    if hasName arrayNames ts then some (TypeText.arrayOf TypeText.unknown) else groupType? ts

/-- The type of the items that item rules describe. -/
def itemTypeOr (items : List Rule) : String :=
  match itemType? items with
  | none | some "" => TypeText.unknown
  | some t => t

/-- The type of tokens and of the item rules, if there are any. -/
def inferType? (ts : List Rule) : (items : Option (List Rule)) → Option String
  | none => itemType? ts
  | some items => fixedType? ts <|> some (TypeText.arrayOf (itemTypeOr items))

/-- The enums that the type of tokens and item rules was read off. -/
def references (ts : List Rule) (items : Option (List Rule)) : List String :=
  match firstEnum? ts with
  | some r => [r]
  | none =>
    if (choiceType? ts).isSome then [] else (items.bind firstEnum?).toList

end PayloadTypes.Rule
