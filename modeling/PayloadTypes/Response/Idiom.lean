import PayloadTypes.Response.Naming
import PayloadTypes.Text.Case
import PayloadTypes.Text.Digit
import PayloadTypes.Text.Reader
import PayloadTypes.TypeText.ArrayType
import PayloadTypes.TypeText.Union
/-!
# Idioms of responses

An expression gets its type from the idioms it contains. Each idiom looks
for its first place in the expression and may then give a type; an idiom
that is found may still leave the type to the ones behind it.
-/

namespace PayloadTypes.Response

open Text (Reader)
open Text.Reader

/-- A way of writing an expression that tells its type. -/
structure Idiom where
  /-- Its name. -/
  name : String
  /-- The type it gives, if any, where it is found in an expression. -/
  read : Naming → List Char → Option (Option String)

namespace Idiom

/-- The idiom is found in the expression. -/
def found (i : Idiom) (n : Naming) (e : List Char) : Bool := (i.read n e).isSome

/-- The type that the idiom gives the expression. -/
def type? (i : Idiom) (n : Naming) (e : List Char) : Option String := (i.read n e).join

/-! ## Readers -/

/-- A character that starts a class name. -/
def isClassStart (c : Char) : Bool := c.isAlpha || c == '_' || c == '\\'

/-- A character of a class name. -/
def isClassChar (c : Char) : Bool := c.isAlphanum || c == '_' || c == '\\'

/-- A class name, with or without its namespace. -/
def className : Reader (List Char) := do
  let c ← one isClassStart
  let s ← many isClassChar
  return c :: s

/-- An opening parenthesis, blanks in front of it. -/
def openCall : Reader Unit := do
  blanks
  char '('

/-- The arguments of a call without parentheses in them. -/
def flatArguments : Reader Unit := do
  char '('
  let _ ← many (· != ')')
  char ')'

/-- A class whose static function `f` is called. -/
def staticCall (f : String) : Reader (List Char) := do
  let c ← className
  text "::"
  text f
  openCall
  return c

/-- A class that is constructed. -/
def construction : Reader (List Char) := do
  text "new"
  blanks1
  let c ← className
  openCall
  return c

/-- A function that is passed as an argument, up to the expression it returns. -/
def callback : Reader Unit := do
  char '('
  blanks
  let _ ← maybe (do
    text "static"
    blanks1)
  let _ ← oneOf ["fn", "function"]
  blanks
  flatArguments
  blanks
  -- variables that are bound and the type of what is returned may stand in between
  let _ ← maybe (do
    text "use"
    blanks
    flatArguments
    blanks)
  let _ ← maybe (do
    char ':'
    blanks
    let _ ← many1 fun c => isClassChar c || c == '?'
    blanks)
  -- a body has to return at once
  text "=>" <|> do
    char '\x7b'
    blanks
    text "return"
  blanks

/-- How a function that is mapped over a collection makes its items. -/
inductive Making where
  /-- It constructs a class. -/
  | construct
  /-- It calls the static function `make` of a class. -/
  | make
  /-- It calls the static function `collection` of a class. -/
  | collection
deriving DecidableEq, Repr

/-- A function mapped over a collection. -/
structure Mapping where
  /-- What it makes is flattened by one level. -/
  flat : Bool
  /-- How it makes the items. -/
  making : Making
  /-- The class it makes them of. -/
  reference : List Char

/-- A function that makes items of a class, mapped over a collection. -/
def mapping : Reader Mapping := do
  text "->"
  blanks
  let f ← oneOf ["map", "transform", "flatMap"]
  blanks
  callback
  let (making, reference) ←
    ((do return (.construct, ← construction)) <|>
      (do
        let c ← className
        text "::"
        let m ← oneOf ["make", "collection"]
        openCall
        return (if m = "make" then .make else .collection, c)) : Reader (Making × List Char))
  return ⟨f == "flatMap", making, reference⟩

/-! ## Types -/

/-- The array of what a collection class holds. -/
def collectedArray (n : Naming) (name : String) : String := TypeText.arrayOf (n.collected name)

/-- A class that stands for no item type of its own. -/
def isOpenClass (n : Naming) (name : String) : Bool :=
  pseudoClasses.contains name || n.generic.contains name

/-- The type of a class that is constructed. -/
def constructedType? (n : Naming) (name : String) : Option String :=
  if n.isCollection name then some (collectedArray n name)
  else if n.isResource name then some name
  else none

/-- The type of the items that a mapped function makes. -/
def itemType? (n : Naming) (m : Mapping) : Option String :=
  let name := shortClass m.reference
  if m.making = .collection then
    if isOpenClass n name then none else some (collectedArray n name)
  else if n.isResource name then some name
  else if n.isCollection name then some (collectedArray n name)
  else none

/-- A type flattened by one level. -/
def flattened (t : String) : String :=
  match TypeText.itemType? t with
  | none | some "" => t
  | some item => item

/-- The type of a mapped collection. -/
def mappedType? (n : Naming) (m : Mapping) : Option String :=
  (itemType? n m).map fun t => TypeText.arrayOf (if m.flat then flattened t else t)

/-! ## The idioms -/

/-- The idiom of what `r` reads at its first place. -/
def searching {α : Type} (name : String) (r : Text.Reader.Placed α)
    (type : Naming → List Char → α → Option String) : Idiom where
  name
  read n e := (find? r e).map fun f => type n e f.value

/-- The idiom of expressions that are as a whole as `p` says. -/
def whole (name : String) (p : List Char → Bool) (type : String) : Idiom where
  name
  read _ e := if p (Text.trim e) then some (some type) else none

/-- A collection mapped to resources. -/
def collectionMapping : Idiom :=
  searching "collection_mapping" (anywhere mapping) fun n _ m => mappedType? n m

/-- The collection of a resource class. -/
def resourceCollection : Idiom :=
  searching "resource_collection" (anywhere (staticCall "collection")) fun n _ c =>
    if isOpenClass n (shortClass c) then none else some (collectedArray n (shortClass c))

/-- A resource or collection that is constructed. -/
def resourceConstruction : Idiom :=
  searching "resource_construction" (wordStart construction) fun n _ c =>
    constructedType? n (shortClass c)

/-- A resource that a static function makes. -/
def resourceFactory : Idiom :=
  searching "resource_factory" (anywhere (staticCall "make")) fun n _ c =>
    if n.isResource (shortClass c) then some (shortClass c) else none

/-- The collection of a resource class of which the item type is not known. -/
def genericCollection : Idiom :=
  searching "generic_collection" (anywhere (staticCall "collection")) fun n _ c =>
    if n.generic.contains (shortClass c) then some (TypeText.arrayOf TypeText.unknown) else none

/-- A method called on every item of a collection. -/
def mapShorthand : Idiom :=
  searching "map_shorthand" (anywhere (do
    text "->map->"
    blanks
    let _ ← one Text.isIdentStart
    let _ ← many Text.isWord
    openCall)) fun _ _ _ => some (TypeText.arrayOf TypeText.unknown)

/-- A null-safe access. -/
def nullsafeMark : Text.Reader.Placed Unit := anywhere (text "?->")

/-- A point in time written as a text. -/
def isoText : Idiom :=
  searching "iso8601_string" (anywhere (do
    text "toIso8601"
    let _ ← maybe (text "Zulu")
    text "String()")) fun _ e _ =>
      some (if occurs nullsafeMark e then "string | null" else "string")

/-- An access that may end in nothing. -/
def nullsafeAccess : Idiom :=
  searching "nullsafe_access" nullsafeMark fun _ _ _ => some "unknown | null"

/-- A letter without its case; the long s counts as an s. -/
def foldLetter (c : Char) : Char := if c = 'ſ' then 's' else c.toLower

/-- A truth value. -/
def booleanLiteral : Idiom :=
  whole "boolean_literal" (fun e =>
    e.map foldLetter == "true".toList || e.map foldLetter == "false".toList) "boolean"

/-- Digits with or without a sign and a fraction, and nothing behind them. -/
def plainNumber : Reader Unit := do
  let _ ← maybe (char '-')
  let _ ← many1 Text.isDigit
  let _ ← maybe (do
    char '.'
    many1 Text.isDigit)
  fun s => if s.isEmpty then some ((), s) else none

/-- A number. -/
def numberLiteral : Idiom :=
  whole "number_literal" (fun e => (accepts? plainNumber e).isSome) "number"

/-- A text in quotes `q` without such a quote inside. -/
def isQuotedBy (q : Char) (e : List Char) : Bool :=
  match (Text.after? [q] e).bind (Text.before? [q]) with
  | some inner => !inner.contains q
  | none => false

/-- A text in quotes. -/
def stringLiteral : Idiom :=
  whole "string_literal" (fun e => isQuotedBy '\'' e || isQuotedBy '"' e) "string"

end Idiom

/-- All idioms, the first that gives a type deciding. -/
def idioms : List Idiom := [
  .collectionMapping, .resourceCollection, .resourceConstruction, .resourceFactory,
  .genericCollection, .mapShorthand, .isoText, .nullsafeAccess, .booleanLiteral,
  .numberLiteral, .stringLiteral]

/-- An attribute that is there only under a condition. -/
def conditional : Reader Unit := do
  text "when"
  let _ ← maybe (oneOf ["Loaded", "Counted", "NotNull", "Has", "Aggregated", "PivotLoaded"])
  Idiom.openCall

/-- The expression holds a conditional attribute. -/
def isConditional (e : List Char) : Bool := occurs (wordStart conditional) e

end PayloadTypes.Response
