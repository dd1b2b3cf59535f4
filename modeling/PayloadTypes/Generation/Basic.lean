import PayloadTypes.Field
import PayloadTypes.Project.Basic
import PayloadTypes.Symbols
/-!
# Generated declarations

What a project comes to: one type for every request and resource that has
fields, and for every collection, data object and enum. A generation also
knows the named types that its own types refer to, and can tell which of
them it does not declare.
-/

namespace PayloadTypes

/-- A declared type. -/
structure TypeDecl where
  /-- Its name. -/
  name : String
  /-- What it is the type of. -/
  kind : DeclKind
  /-- The fields of an object type. -/
  fields : List Field
  /-- The text of any other type. -/
  body : Option String
  /-- The cases of an enum. -/
  cases : OrderedMap CaseValue
  /-- A second type, with the envelope of a response, stands beside it. -/
  responseAlias : Bool

namespace TypeDecl

/-- An object type. -/
def object (name : String) (kind : DeclKind) (fields : List Field) (responseAlias : Bool) :
    TypeDecl :=
  ⟨name, kind, fields, none, .empty, responseAlias⟩

/-- The texts of all types that a declaration mentions. -/
def types (d : TypeDecl) : List String :=
  d.fields.map (·.type) ++
    match d.body with
    | none | some "" => []
    | some t => [t]

end TypeDecl

/-- What a project comes to. -/
structure Generation where
  /-- The declared types. -/
  declarations : List TypeDecl
  /-- The named types that were met. -/
  symbols : Symbols
  /-- The requests and resources without fields. -/
  skipped : List String

namespace Generation

/-- The first declaration of a name. -/
def get? (g : Generation) (name : String) : Option TypeDecl :=
  g.declarations.find? fun d => d.name == name

/-- The first declaration of a name, if it is of a kind. -/
def select? (g : Generation) (kind : DeclKind) (name : String) : Option TypeDecl :=
  (g.get? name).filter fun d => d.kind == kind

/-- The names of the declared types. -/
def names (g : Generation) : List String := g.declarations.map (·.name)

/-- The named types that are not declared, in order. -/
def unresolved (g : Generation) : List String :=
  g.symbols.shortNames.filter fun n => !g.names.contains n

/-- Some type has the envelope of a response. -/
def usesEnvelope (g : Generation) : Bool := g.declarations.any (·.responseAlias)

end Generation

end PayloadTypes
