import PayloadTypes.Source.Enclosed
import PayloadTypes.Source.Scope
/-!
# Classes

Classes, enums, interfaces and traits are declared at the start of a line.
Such a declaration has a body when its braces balance; the doc comment
above it belongs to it, with nothing but attributes between them.
-/

namespace PayloadTypes.Source

open Text (Reader)
open Text.Reader

/-- What is declared. -/
inductive ClassKind where
  /-- A class. -/
  | ordinary
  /-- An enum. -/
  | enumeration
  /-- An interface. -/
  | interface
  /-- A trait. -/
  | trait
deriving DecidableEq, Repr

/-- The keyword of a declaration. -/
def ClassKind.keyword : ClassKind → String
  | .ordinary => "class"
  | .enumeration => "enum"
  | .interface => "interface"
  | .trait => "trait"

/-- All kinds of declarations. -/
def ClassKind.all : List ClassKind := [.ordinary, .enumeration, .interface, .trait]

/-- A declared class. -/
structure ClassDecl where
  /-- Its name. -/
  name : String
  /-- What it is. -/
  kind : ClassKind
  /-- Where the names in it are looked up. -/
  scope : Scope
  /-- The full name of the class it extends. -/
  parent : Option String
  /-- The doc comment above it. -/
  docblock : String
  /-- What its braces enclose. -/
  body : String
  /-- It is abstract. -/
  abstract : Bool

/-- The full name of a class. -/
def ClassDecl.fullName (c : ClassDecl) : String :=
  if c.scope.namespaceName = "" then c.name else c.scope.namespaceName ++ "\\" ++ c.name

/-! ## Headers -/

/-- The header of a declaration. -/
structure ClassHeader where
  /-- The words in front of the keyword. -/
  modifiers : List String
  /-- What is declared. -/
  kind : ClassKind
  /-- Its name. -/
  name : String
  /-- The name of the class it extends, as it is written. -/
  parent : Option String

/-- A word in front of the keyword. -/
def modifier : Reader String := do
  let w ← oneOf ["abstract", "final", "readonly"]
  blanks1
  return w

/-- The keyword of a declaration. -/
def classKeyword : Reader ClassKind := fun s =>
  ClassKind.all.findSome? fun k => (text k.keyword s).map fun p => (k, p.2)

/-- The type of the values of an enum. -/
def backing : Reader Unit := do
  blanks
  char ':'
  blanks
  let _ ← oneOf ["int", "string"]

/-- The class that a class extends. -/
def extending : Reader (List Char) := do
  blanks1
  text "extends"
  blanks1
  many1 isNameChar

/-- The interfaces that a class implements, or only blanks in their place, if more than one. -/
def implementing : Reader Unit := do
  blanks1
  text "implements"
  let _ ← one Text.isBlank
  let _ ← many1 fun c => isNameChar c || c == ',' || Text.isBlank c

/-- A header up to the brace that opens its body. -/
def classHeader : Reader ClassHeader := do
  let _ ← many fun c => c == ' ' || c == '\t'
  let modifiers ← repeated modifier
  let kind ← classKeyword
  blanks1
  let name ← identifier
  let _ ← maybe backing
  let parent ← maybe extending
  let _ ← maybe implementing
  blanks
  char '\x7b'
  return ⟨modifiers, kind, String.ofList name, parent.map String.ofList⟩

/-! ## Doc comments -/

theorem length_cutLast? {w s a b : List Char} (hw : w ≠ []) (h : Text.cutLast? w s = some (a, b)) :
    a.length < s.length := by
  have hs := congrArg List.length (Text.cutLast?_eq_some h)
  have := List.length_pos_iff.mpr hw
  simp only [List.length_append] at hs
  omega

/-- A text without the attributes that stand at its end. -/
def withoutAttributes (s : List Char) : List Char :=
  if Text.endsWith [']'] s then
    -- attributes may stand one behind the other
    match _h : Text.cutLast? ['#', '['] s with
    | none => s
    | some p => withoutAttributes (Text.trimEnd p.1)
  else s
termination_by s.length
decreasing_by
  have h1 := length_cutLast? (by simp) _h
  have h2 : (Text.trimEnd p.1).length ≤ p.1.length := Text.length_dropEndWhile_le _ _
  omega

/-- The doc comment at the end of what stands in front of a declaration. -/
def docblockAtEnd (before : List Char) : List Char :=
  let s := withoutAttributes (Text.trimEnd before)
  if Text.endsWith ['*', '/'] s then
    match Text.cutLast? ['/', '*', '*'] s with
    | some p => '/' :: '*' :: '*' :: p.2
    | none => []
  else []

/-! ## Declarations -/

/-- The declaration of a header, if its braces balance. -/
def classOfHeader? (scope : Scope) (f : Found ClassHeader) : Option ClassDecl :=
  (enclosed? '\x7b' f.after).map fun p =>
    { name := f.value.name, kind := f.value.kind, scope
      parent := f.value.parent.map scope.resolve
      docblock := String.ofList (docblockAtEnd f.before)
      body := String.ofList p.1
      abstract := f.value.modifiers.contains "abstract" }

/-- The scope that a source sets up. -/
def scopeOf (source : List Char) : Scope := ⟨namespaceOf source, importsOf source⟩

/-- The declarations of a source, in order. -/
def classes (source : List Char) : List ClassDecl :=
  (findEach (lineStart classHeader) source).filterMap (classOfHeader? (scopeOf source))

end PayloadTypes.Source
