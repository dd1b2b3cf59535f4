import PayloadTypes.Data.OrderedMap
import PayloadTypes.Source.Scope
/-!
# Doc comments

The tags of a doc comment declare the types of properties, the model that a
class stands for, and the cases of an enum that is a class.
-/

namespace PayloadTypes.Source

open Text (Reader)
open Text.Reader

/-- A property behind blanks. -/
def propertyName : Reader (List Char) := do
  blanks1
  char '$'
  identifier

/-- A tag that declares a property: its type and its name. -/
def propertyTag : Reader (List Char × List Char) := do
  text "@property"
  let _ ← maybe (oneOf ["-read", "-write"])
  blanksThen (lineUntil propertyName)

/-- The types of the properties that a doc comment declares. -/
def propertyTypes (docblock : List Char) : OrderedMap String :=
  OrderedMap.ofList ((findAll (anywhere propertyTag) docblock).map fun p =>
    (String.ofList p.2, String.ofList (Text.trim p.1)))

/-- A tag that names a model. -/
def mixinTag : Reader (List Char) := do
  text "@mixin"
  blanks1
  many1 isNameChar

/-- The model that a doc comment names first. -/
def mixin? (docblock : List Char) : Option String :=
  (find? (anywhere mixinTag) docblock).map fun f => String.ofList f.value

/-- A tag that declares a static function which gives the class itself. -/
def caseTag : Reader (List Char) := do
  text "@method"
  blanks1
  text "static"
  blanks1
  -- either word stands for the class itself
  let _ ← oneOf ["self", "static"]
  blanks1
  let name ← identifier
  blanks
  char '('
  return name

/-- The cases that a doc comment declares. -/
def caseTags (docblock : List Char) : List String :=
  (findAll (anywhere caseTag) docblock).map String.ofList

end PayloadTypes.Source
