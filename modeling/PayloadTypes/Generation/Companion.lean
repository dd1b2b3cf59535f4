import PayloadTypes.Project.Basic
import PayloadTypes.Response.Naming
import PayloadTypes.Settings.Basic
import PayloadTypes.Source.DeclaredType
/-!
# Companions

A request declares types beside its rules. A resource has the types of a
data object: the one that it names, or the one named after its model, or
the one named after the resource. A collection has the resource that it
names, or the one named after the collection.
-/

namespace PayloadTypes

open Response (hasStem stem)

/-- The types declared beside the rules of a request. -/
def RequestDecl.companionTypes (r : RequestDecl) (s : Settings) : OrderedMap String :=
  r.properties.mapValues fun _ t => Source.declaredType s.nullAsOptional (some t)

/-- The name of the data object of a resource. -/
def ResourceDecl.dataName? (r : ResourceDecl) (s : Settings) : Option String :=
  match filled? r.data, filled? r.mixin with
  | some d, _ => some (shortName d)
  | none, some m => some (shortName m ++ s.dataSuffix)
  | none, none =>
    if hasStem s.resourceSuffix r.name then some (stem s.resourceSuffix r.name ++ s.dataSuffix)
    else none

/-- The types of the properties of a resource's data object, if there is one. -/
def ResourceDecl.companionTypes (r : ResourceDecl) (p : Project) (s : Settings) :
    OrderedMap String :=
  match (filled? (r.dataName? s)).bind p.data.get? with
  | some d => d.properties.mapValues fun _ t => Source.declaredType false (some t)
  | none => .empty

/-- The type of the items of a collection. -/
def CollectionDecl.itemType (c : CollectionDecl) (s : Settings) : String :=
  match filled? c.collects with
  | some r => shortName r
  | none =>
    if hasStem s.collectionSuffix c.name then
      stem s.collectionSuffix c.name ++ s.resourceSuffix
    else TypeText.unknown

/-- How resources are named by settings. -/
def Settings.naming (s : Settings) : Response.Naming :=
  ⟨s.resourceSuffix, s.collectionSuffix, s.genericTypes⟩

end PayloadTypes
