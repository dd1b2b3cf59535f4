import PayloadTypes.Data.OrderedMap
import PayloadTypes.Rule.Definition
/-!
# Projects

A project is what is known of the payloads of an application: the rules of
its requests, the sources of its resources, its collections, its data
objects and its enums, each under a name. Merging puts one project over
another.
-/

namespace PayloadTypes

/-- A text that is there and not empty. -/
def filled? : Option String → Option String
  | some "" => none
  | t => t

/-- The kinds of declarations. -/
inductive DeclKind where
  /-- A request. -/
  | request
  /-- A resource. -/
  | resource
  /-- A collection. -/
  | collection
  /-- A data object. -/
  | data
  /-- An enum. -/
  | enum
deriving DecidableEq, Repr

namespace DeclKind

/-- All kinds. -/
def all : List DeclKind := [.request, .resource, .collection, .data, .enum]

/-- The word for a kind. -/
def name : DeclKind → String
  | .request => "request"
  | .resource => "resource"
  | .collection => "collection"
  | .data => "data"
  | .enum => "enum"

end DeclKind

/-- The value of a case of an enum. -/
inductive CaseValue where
  /-- An integer. -/
  | int (i : Int)
  /-- A text. -/
  | text (s : String)
deriving DecidableEq, Repr

/-- The rules of a request. -/
structure RequestDecl where
  /-- Its name. -/
  name : String
  /-- The rules of its fields. -/
  rules : OrderedMap Rule
  /-- The types declared beside the rules. -/
  properties : OrderedMap String
  /-- The file it comes from. -/
  sourceFile : Option String

/-- A resource, which returns the fields of a response. -/
structure ResourceDecl where
  /-- Its name. -/
  name : String
  /-- The source of the method that returns its fields. -/
  source : String
  /-- The model it stands for. -/
  mixin : Option String
  /-- The data object that tells the types of its fields. -/
  data : Option String
  /-- The file it comes from. -/
  sourceFile : Option String
deriving DecidableEq, Repr

/-- A collection of resources. -/
structure CollectionDecl where
  /-- Its name. -/
  name : String
  /-- The resource that it collects. -/
  collects : Option String
  /-- The file it comes from. -/
  sourceFile : Option String
deriving DecidableEq, Repr

/-- A data object. -/
structure DataDecl where
  /-- Its name. -/
  name : String
  /-- The declared types of its properties. -/
  properties : OrderedMap String
  /-- The file it comes from. -/
  sourceFile : Option String

/-- An enum. -/
structure EnumDecl where
  /-- Its name. -/
  name : String
  /-- The values of its cases. -/
  cases : OrderedMap CaseValue
  /-- The file it comes from. -/
  sourceFile : Option String

/-- What is known of the payloads of an application. -/
structure Project where
  /-- The requests. -/
  requests : OrderedMap RequestDecl
  /-- The resources. -/
  resources : OrderedMap ResourceDecl
  /-- The collections. -/
  collections : OrderedMap CollectionDecl
  /-- The data objects. -/
  data : OrderedMap DataDecl
  /-- The enums. -/
  enums : OrderedMap EnumDecl

/-- The rules of a request as rules under names. -/
def RequestDecl.ruleEntries (r : RequestDecl) : RuleEntries :=
  r.rules.entries.map fun e => (.text e.1, e.2)

namespace Project

/-- The project of which nothing is known. -/
def empty : Project := ⟨.empty, .empty, .empty, .empty, .empty⟩

/-- The project `p` with what `q` declares put over it. -/
def merge (p q : Project) : Project where
  requests := p.requests.merge q.requests
  resources := p.resources.merge q.resources
  collections := p.collections.merge q.collections
  data := p.data.merge q.data
  enums := p.enums.merge q.enums

/-- How many declarations there are. -/
def size (p : Project) : Nat :=
  p.requests.size + p.resources.size + p.collections.size + p.data.size + p.enums.size

end Project

end PayloadTypes
