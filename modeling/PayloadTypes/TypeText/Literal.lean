import PayloadTypes.Text.Cut
import PayloadTypes.Text.Word
/-!
# Literals and property names

A text becomes a literal in single quotes. A property name stands as it is
when it is an identifier of the output language, alone or with one line
break behind it, and as a literal otherwise.
-/

namespace PayloadTypes.TypeText

/-- The text as a literal. -/
def quoteLiteral (s : String) : String :=
  String.ofList ('\'' :: Text.escapeWith '\\' '\'' s.toList ++ ['\''])

/-- A character that may start a property name. -/
def isNameStart (c : Char) : Bool := Text.isIdentStart c || c == '$'

/-- A character that a property name may go on with. -/
def isNameChar (c : Char) : Bool := Text.isIdentChar c || c == '$'

/-- A name that needs no quotes, alone. -/
def isBareName : List Char → Bool
  | [] => false
  | c :: s => isNameStart c && s.all isNameChar

/-- A property name as it is written in an object type. -/
def propertyName (name : String) : String :=
  let cs := name.toList
  if isBareName cs || ((Text.before? ['\n'] cs).map isBareName).getD false then name
  else quoteLiteral name

end PayloadTypes.TypeText
