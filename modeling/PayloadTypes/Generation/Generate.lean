import PayloadTypes.Generation.Basic
import PayloadTypes.Generation.Companion
import PayloadTypes.Notice
import PayloadTypes.Response.Inference
import PayloadTypes.Rule.Field
import PayloadTypes.TypeText.ArrayType
import PayloadTypes.TypeText.Literal
import PayloadTypes.TypeText.Reference
/-!
# Generating types

Every declaration of a project becomes a type, but for requests and
resources without fields, which are skipped. The types stand in the order
of their names; where names are equal, in the order of the sections. A
run that generates them ends with a fault where the value of an enum is an
integer with more digits than are written.
-/

namespace PayloadTypes

/-- The fields of a request. -/
def RequestDecl.fields (r : RequestDecl) (s : Settings) : List Field :=
  r.ruleEntries.fields (r.companionTypes s)

/-- The fields of a resource, if its source returns an array literal. -/
def ResourceDecl.fields? (r : ResourceDecl) (p : Project) (s : Settings) : Option (List Field) :=
  Response.fields? s.naming (r.companionTypes p s) r.source

/-- The type of a request that has fields. -/
def RequestDecl.type? (r : RequestDecl) (s : Settings) : Option TypeDecl :=
  match r.fields s with
  | [] => none
  | fs => some (.object r.name .request fs false)

/-- The type of a resource that has fields. -/
def ResourceDecl.type? (r : ResourceDecl) (p : Project) (s : Settings) : Option TypeDecl :=
  match r.fields? p s with
  | none | some [] => none
  | some fs => some (.object r.name .resource fs s.responseAliases)

/-- The type of a collection. -/
def CollectionDecl.type (c : CollectionDecl) (s : Settings) : TypeDecl where
  name := c.name
  kind := .collection
  fields := []
  body := some (TypeText.arrayOf (c.itemType s))
  cases := .empty
  responseAlias := s.responseAliases

/-- The field of a property. -/
def propertyField (s : Settings) (name declared : String) : Field :=
  ⟨name, Source.declaredType s.nullAsOptional (some declared),
    s.nullAsOptional && Source.allowsNull (some declared)⟩

/-- The type of a data object. -/
def DataDecl.type (d : DataDecl) (s : Settings) : TypeDecl :=
  .object d.name .data (d.properties.entries.map fun e => propertyField s e.1 e.2) false

/-- The value of a case can be written. -/
def CaseValue.isWritable : CaseValue → Bool
  | .int i => isWritableInteger i
  | .text _ => true

/-- The values of all cases can be written. -/
def areWritable (cases : OrderedMap CaseValue) : Bool := cases.values.all (·.isWritable)

/-- The literal of a value that can be written. -/
def CaseValue.literal : CaseValue → String
  | .int i => String.ofList (Text.intDigits i)
  | .text s => TypeText.quoteLiteral s

/-- The type of nothing at all. -/
def neverType : String := "never"

/-- The union of the values of cases. -/
def caseUnion (cases : OrderedMap CaseValue) : String :=
  match cases.values with
  | [] => neverType
  | vs => TypeText.union (vs.map (·.literal))

/-- The type of an enum. -/
def EnumDecl.type (e : EnumDecl) : TypeDecl where
  name := e.name
  kind := .enum
  fields := []
  body := some (caseUnion e.cases)
  cases := e.cases
  responseAlias := false

namespace Project

/-- The types of a project, section by section. -/
def types (p : Project) (s : Settings) : List TypeDecl :=
  p.requests.values.filterMap (·.type? s) ++ p.resources.values.filterMap (·.type? p s) ++
    p.collections.values.map (·.type s) ++ p.data.values.map (·.type s) ++
    p.enums.values.map (·.type)

/-- The names of the requests and resources without fields. -/
def skipped (p : Project) (s : Settings) : List String :=
  (p.requests.values.filter fun r => (r.type? s).isNone).map (·.name) ++
    (p.resources.values.filter fun r => (r.type? p s).isNone).map (·.name)

/-- What a project comes to where the values of its enums can be written. -/
def generate (p : Project) (s : Settings) : Generation :=
  let types := (p.types s).mergeSort fun a b => decide (a.name ≤ b.name)
  { declarations := types
    symbols :=
      (p.requests.values.foldl (fun acc r => acc.union r.ruleEntries.symbols) Symbols.empty).addAll
        (types.flatMap fun d => d.types.flatMap TypeText.references)
    skipped := p.skipped s }

/-- What is noted about a resource. -/
def resourceNotices (p : Project) (s : Settings) (r : ResourceDecl) : List Notice :=
  match r.fields? p s with
  | none => [.noLiteral, .resourceSkipped r.name]
  | some [] => [.resourceSkipped r.name]
  | some _ => []

/-- What is noted about requests and resources. -/
def skipNotices (p : Project) (s : Settings) : List Notice :=
  (p.requests.values.filter fun r => (r.type? s).isNone).map (fun r => .requestSkipped r.name) ++
    p.resources.values.flatMap (p.resourceNotices s)

/-- The values of all enums can be written. -/
def isWritable (p : Project) : Bool := p.enums.values.all fun e => areWritable e.cases

/-- Generate the types of a project. -/
def generation (p : Project) (s : Settings) : Noting Generation := do
  (p.skipNotices s).forM Noting.note
  -- enums come last, so whatever is skipped has been noted by then
  if p.isWritable then
    let g := p.generate s
    Noting.note (.generated g.declarations.length g.skipped.length g.unresolved.length)
    return g
  else Noting.fault (.unreadable .longInteger)

end Project

end PayloadTypes
