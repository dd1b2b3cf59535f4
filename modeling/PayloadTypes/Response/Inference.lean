import PayloadTypes.Field
import PayloadTypes.Response.Idiom
import PayloadTypes.Source.ArrayLiteral
/-!
# Fields of responses

Every entry of the array literal that a response returns is a field. It has
the type of the first idiom that tells one, else the type declared beside
it, and it may be left out when its expression is conditional.
-/

namespace PayloadTypes.Response

/-- The type of an expression. -/
def inferType (n : Naming) (companion : Option String) (e : List Char) : String :=
  match idioms.findSome? fun i => i.type? n e with
  | some t => t
  | none =>
    match companion with
    | none | some "" => TypeText.unknown
    | some c => c

/-- The field of an entry. -/
def field (n : Naming) (companions : OrderedMap String) (key expression : String) : Field :=
  ⟨key, inferType n (companions.get? key) expression.toList, isConditional expression.toList⟩

/-- The fields of the array literal that a source returns. -/
def fields? (n : Naming) (companions : OrderedMap String) (source : String) :
    Option (List Field) :=
  (Source.returnedLiteral? source.toList).map fun content =>
    (Source.entries content).entries.map fun e => field n companions e.1 e.2

end PayloadTypes.Response
