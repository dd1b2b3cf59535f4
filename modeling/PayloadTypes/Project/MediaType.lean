import PayloadTypes.Files.Charset
import PayloadTypes.Text.Cut
/-!
# Media types

A server tells the kind of what it sends: a type, and parameters behind
semicolons. The parameter `charset` names the charset of a text; a text in
a charset that is not known is taken for UTF-8.
-/

namespace PayloadTypes.MediaType

/-- The pieces of a text between semicolons that stand outside of quotes; a quote behind a backslash
does not count. -/
def pieces (inQuotes afterBackslash : Bool) : List Char → List (List Char)
  | [] => [[]]
  | c :: s =>
    if c = ';' ∧ !inQuotes then [] :: pieces false false s
    else
      -- a semicolon in quotes is a character like any other
      match pieces (inQuotes != (c == '"' && !afterBackslash)) (c == '\\') s with
      | [] => [[c]]
      | p :: ps => (c :: p) :: ps

/-- The name and the value of a parameter. -/
def parameter (piece : List Char) : List Char × List Char :=
  match Text.cut? '=' piece with
  | some (name, value) => (Text.lower (Text.trim name), Text.trim value)
  | none => (Text.lower (Text.trim piece), [])

/-- A value without the quotes or the angle brackets around it. -/
def unquoted (s : List Char) : List Char :=
  match (Text.after? ['"'] s).bind (Text.before? ['"']) with
  | some inner => Text.replacePair '\\' '"' '"' (Text.replacePair '\\' '\\' '\\' inner)
  | none => ((Text.after? ['<'] s).bind (Text.before? ['>'])).getD s

/-- The name of the charset, if there is one and all of it is ASCII. -/
def charsetName? (type : String) : Option String :=
  match ((pieces false false type.toList).map parameter).lookup "charset".toList with
  | some value =>
    let name := unquoted value
    if name.all fun c => c.toNat < 128 then some (String.ofList name) else none
  | none => none

/-- The charset of a text. -/
def charset (type : String) : Files.Charset :=
  ((charsetName? type).bind Files.Charset.ofName?).getD (.utf8 false)

end PayloadTypes.MediaType
