import PayloadTypes.Text.Blank
import PayloadTypes.Text.Cut
/-!
# Names of resources

Resources and collections are known by the ends of their class names. The
resource of a collection has the collection's name with the other ending.
-/

namespace PayloadTypes.Response

/-- The name in front of an ending of its length; an empty ending leaves nothing. -/
def stem (ending name : String) : String :=
  if ending = "" then ""
  else String.ofList (name.toList.take (name.toList.length - ending.toList.length))

/-- The name ends in `ending` and is more than that. -/
def hasStem (ending name : String) : Bool :=
  Text.endsWith ending.toList name.toList && name != ending

/-- How resources and collections are named. -/
structure Naming where
  /-- The end of a resource's name. -/
  resourceSuffix : String
  /-- The end of a collection's name. -/
  collectionSuffix : String
  /-- Resources of which the item type is not known. -/
  generic : List String

namespace Naming

/-- The usual names. -/
def standard : Naming := ⟨"Resource", "Collection", ["JsonResource"]⟩

/-- The name of a resource. -/
def isResource (n : Naming) (name : String) : Bool := hasStem n.resourceSuffix name

/-- The name of a collection. -/
def isCollection (n : Naming) (name : String) : Bool := hasStem n.collectionSuffix name

/-- The resource that a collection holds; any other name stands for itself. -/
def collected (n : Naming) (name : String) : String :=
  if n.isCollection name then stem n.collectionSuffix name ++ n.resourceSuffix else name

end Naming

/-- The last segment of a class reference. -/
def shortClass (reference : List Char) : String :=
  String.ofList (Text.lastPiece '\\' (Text.dropEndWhile (· == '\\') (Text.trim reference)))

/-- Class names that depend on where they stand. -/
def pseudoClasses : List String := ["self", "static", "parent"]

end PayloadTypes.Response
