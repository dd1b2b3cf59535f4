import PayloadTypes.Data.OrderedMap
import PayloadTypes.Text.Case
import PayloadTypes.Text.Reader
/-!
# Names and their scope

A source text names its namespace and imports classes under aliases. In
that scope a class name stands for a full name: an alias for its target,
any other name for the one in the namespace. The keywords for types stand
for themselves.
-/

namespace PayloadTypes.Source

open Text (Reader)
open Text.Reader

/-- Where names are looked up. -/
structure Scope where
  /-- The namespace, or nothing. -/
  namespaceName : String
  /-- The targets of aliases. -/
  imports : OrderedMap String

/-- Type keywords, which stand for themselves. -/
def keywords : List String := [
  "int", "integer", "float", "double", "string", "bool", "boolean", "true", "false", "null",
  "void", "mixed", "object", "array", "iterable", "list", "callable", "self", "static",
  "parent", "never", "resource", "numeric", "scalar", "class-string", "non-empty-string",
  "positive-int", "negative-int", "non-empty-array", "non-empty-list"]

/-- The name is a type keyword, its case left aside. -/
def isKeyword (name : List Char) : Bool := keywords.contains (String.ofList (Text.lower name))

/-- A character of a qualified name. -/
def isNameChar (c : Char) : Bool := Text.isIdentChar c || c == '\\'

/-! ## Namespaces and imports -/

/-- The name of a namespace at the start of a line. -/
def namespaceLine : Reader (List Char) := do
  blanks
  text "namespace"
  blanks1
  let name ← many1 isNameChar
  blanks
  let _ ← one fun c => c == ';' || c == '\x7b'
  return name

/-- The namespace of a source. -/
def namespaceOf (source : List Char) : String :=
  match find? (lineStart namespaceLine) source with
  | some f => String.ofList f.value
  | none => ""

/-- What is imported by a clause, unless it imports functions or constants. -/
def importClause : Reader (List Char) := fun s =>
  let starts (w : String) : Bool :=
    match Text.after? w.toList s with
    | some (c :: _) => Text.isBlank c
    | _ => false
  if starts "function" || starts "const" then none
  else
    (do
      let clause ← many1 (· != ';')
      char ';'
      return clause : Reader (List Char)) s

/-- An import at the start of a line. -/
def importLine : Reader (List Char) := do
  text "use"
  blanksThen importClause

/-- The names in a clause; those of a group get its common front. -/
def importNames (clause : List Char) : List (List Char) :=
  match Text.cut? '\x7b' clause with
  | some (front, group) =>
    let front := Text.dropEndWhile (· == '\\') (Text.trim front)
    (Text.splitOn ',' (Text.dropEndWhile (· == '\x7d') group)).map fun item =>
      front ++ '\\' :: Text.trim item
  | none => (Text.splitOn ',' clause).map Text.trim

/-- The word between a name and its alias. -/
def aliasWord : Reader Unit := do
  blanks1
  text "as"
  blanks1

/-- The alias and the target of an imported name. -/
def importEntry? (name : List Char) : Option (String × String) :=
  -- an empty item of a group names nothing, and neither does what ends as a namespace
  if name.isEmpty || Text.endsWith ['\\'] name then none
  else
    let (target, given) :=
      match find? (anywhere aliasWord) name with
      | some f => (f.before, Text.trim f.after)
      | none => (name, [])
    let target := (Text.trim target).dropWhile (· == '\\')
    let name := if given.isEmpty then Text.lastPiece '\\' target else given
    some (String.ofList name, String.ofList target)

/-- The imports of a source. -/
def importsOf (source : List Char) : OrderedMap String :=
  OrderedMap.ofList ((findAll (lineStart importLine) source).flatMap fun clause =>
    (importNames (Text.trim clause)).filterMap importEntry?)

/-! ## Full names -/

/-- The full name that a name stands for. -/
def Scope.resolve (sc : Scope) (name : String) : String :=
  match Text.trim name.toList with
  | '\\' :: rest => String.ofList rest
  | cs =>
    let (head, rest) :=
      match Text.cut? '\\' cs with
      | some (head, rest) => (head, '\\' :: rest)
      | none => (cs, [])
    -- an import names the first segment, and the rest goes behind what is imported
    match sc.imports.get? (String.ofList head) with
    | some target => target ++ String.ofList rest
    | none =>
      -- a keyword is the same in every namespace
      if isKeyword cs || sc.namespaceName = "" then String.ofList cs
      else sc.namespaceName ++ "\\" ++ String.ofList cs

/-- A further segment of a name in a type. -/
def typeSegment : Reader (List Char) := do
  char '\\'
  identifier

/-- A name in a type. -/
def typeName : Reader (List Char) := span do
  let _ ← maybe (char '\\')
  let _ ← one Text.isIdentStart
  let _ ← many fun c => Text.isIdentChar c || c == '-'
  repeated typeSegment

/-- A name may start behind this character. -/
def nameMayFollow : Option Char → Bool
  | none => true
  | some c => !(Text.isWord c || c == '$' || c == '\\' || c == '-')

/-- The name of a class in full; a keyword as it is. -/
def Scope.qualifyName (sc : Scope) (name : List Char) : List Char :=
  if isKeyword name then name else '\\' :: (sc.resolve (String.ofList name)).toList

/-- The type with every class name in full. -/
def Scope.qualify (sc : Scope) (type : String) : String :=
  String.ofList (replaceAll (fun before s =>
    if nameMayFollow before then (typeName s).map fun p => (sc.qualifyName p.1, p.2)
    else none) type.toList)

end PayloadTypes.Source
