import PayloadTypes.Source.ClassDecl
/-!
# Members of classes

The typed public properties of a class, the source of a method, and the
class that a collection names as the one it collects.
-/

namespace PayloadTypes.Source

open Text (Reader)
open Text.Reader

/-! ## Properties -/

/-- The type in a comment that stands for the one behind it. -/
def typeComment : Reader (List Char) := do
  text "/**"
  blanks
  text "@var"
  let inner ← many1 (· != '*')
  text "*/"
  blanks
  -- the type is apart from the tag
  match inner with
  | c :: d :: s =>
    if Text.isBlank c then return Text.trim (d :: s) else fun _ => none
  | _ => fun _ => none

/-- A type as it stands in front of a property. -/
def nativeType : Reader (List Char) := span do
  let _ ← maybe (char '?')
  many1 fun c => isNameChar c || c == '|'

/-- A type and the property that has it. -/
def typedName : Reader (List Char × List Char) := do
  let type ← nativeType
  blanks1
  char '$'
  let name ← identifier
  return (type, name)

/-- A public property and its type. -/
def publicProperty : Reader (List Char × List Char) := do
  text "public"
  blanks1
  (do
    text "readonly"
    blanks1
    typedName) <|> typedName

/-- A public property and its type, which a comment may have replaced. -/
def typedProperty : Placed (List Char × List Char) := fun before s =>
  match (do
      let type ← typeComment
      let p ← publicProperty
      return (type, p.2) : Reader (List Char × List Char)) s with
  | some p => some p
  | none => wordStart publicProperty before s

/-- The types of the typed public properties in the body of a class. -/
def typedProperties (body : List Char) : OrderedMap String :=
  OrderedMap.ofList ((findAll typedProperty body).map fun p =>
    (String.ofList p.2, String.ofList p.1))

/-! ## Methods -/

/-- The header of a method up to the parenthesis that opens its parameters. -/
def methodHeader (name : String) : Reader Unit := do
  text "function"
  let named : Reader Unit := do
    text name
    blanks
    char '('
  blanksThen ((do
    char '&'
    named) <|> named)

/-- What is left of a text behind the body of a method, given the text behind the parenthesis
that opens its parameters. -/
def afterMethod? (s : List Char) : Option (List Char) := do
  let (_, rest) ← enclosed? '(' s
  match rest.dropWhile fun c => c != '\x7b' && c != ';' with
  | '\x7b' :: rest => (enclosed? '\x7b' rest).map Prod.snd
  | _ => none

/-- The source of a method with a body, from its first word to its closing brace. -/
def methodSource? (body : List Char) (name : String) : Option (List Char) := do
  let f ← find? (wordStart (methodHeader name)) body
  let rest ← afterMethod? f.after
  let method := body.drop f.before.length
  return method.take (method.length - rest.length)

/-! ## Collected classes -/

/-- How a collection names its class. -/
inductive Collected where
  /-- By a class constant. -/
  | constant (name : List Char)
  /-- By a string. -/
  | quoted (inside : List Char)

/-- A string in quotes `q` that is not empty, as it is written. -/
def rawString (q : Char) : Reader (List Char) := do
  char q
  let inside ← many1 (· != q)
  char q
  return inside

/-- The value of the property that names the collected class. -/
def collectsValue : Reader Collected := do
  text "$collects"
  blanks
  char '='
  blanks
  let c ←
    ((do
      let name ← many1 isNameChar
      text "::class"
      return .constant name) <|>
      (do return .quoted (← rawString '\'')) <|>
      (do return .quoted (← rawString '"')) : Reader Collected)
  blanks
  char ';'
  return c

/-- The full name of the class that a body says it collects. -/
def collects? (scope : Scope) (body : List Char) : Option String :=
  (find? (anywhere collectsValue) body).map fun f =>
    match f.value with
    | .constant name => scope.resolve (String.ofList name)
    | .quoted inside =>
      String.ofList ((Text.replacePair '\\' '\\' '\\' inside).dropWhile (· == '\\'))

end PayloadTypes.Source
