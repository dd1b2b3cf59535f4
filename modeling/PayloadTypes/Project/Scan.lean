import PayloadTypes.Files.Discovery
import PayloadTypes.Notice
import PayloadTypes.Project.ClassTable
import PayloadTypes.Source.EnumCase
import PayloadTypes.Source.RuleLiteral
/-!
# Projects from sources

All classes below a directory are read, the later of two under one name
taking the place of the earlier one. Those that are something and are not
abstract are declared in the project, in the order of their full names.
-/

namespace PayloadTypes

open Files (FileTree Path)
open Source (ClassDecl)

namespace ClassTable

/-- The rules of a request: those of its own or of the nearest class above that has some. -/
def rulesOf (t : ClassTable) (c : ClassDecl) : Except ReadFault (OrderedMap Rule) :=
  match t.method? c "rules" with
  | some (source, owner) => Source.rulesOf owner.scope source
  | none => .ok .empty

/-- A request. -/
def requestOf (t : ClassTable) (c : ClassEntry) : Except ReadFault RequestDecl := do
  return {
    name := c.decl.name
    rules := ← t.rulesOf c.decl
    properties :=
      (Source.propertyTypes c.decl.docblock.toList).mapValues fun _ type =>
        c.decl.scope.qualify type
    sourceFile := some c.path }

/-- A resource, if it or a class above it has the method that tells its fields. -/
def resourceOf? (t : ClassTable) (c : ClassEntry) : Option ResourceDecl :=
  (t.method? c.decl "toArray").map fun m => {
    name := c.decl.name
    source := String.ofList m.1
    mixin := (Source.mixin? c.decl.docblock.toList).map c.decl.scope.resolve
    data := none
    sourceFile := some c.path }

/-- The class that the nearest of some classes collects. -/
def collectedBy : List ClassDecl → Option String
  | [] => none
  | [c] => Source.collects? c.scope c.body.toList
  | c :: cs =>
    match filled? (Source.collects? c.scope c.body.toList) with
    | none => collectedBy cs
    | some name => some name

/-- A collection. -/
def collectionOf (t : ClassTable) (c : ClassEntry) : CollectionDecl where
  name := c.decl.name
  collects := collectedBy (t.lineage c.decl)
  sourceFile := some c.path

/-- The types of the properties that a class itself has. -/
def ownProperties (c : ClassDecl) : OrderedMap String :=
  (Source.typedProperties c.body.toList).mapValues fun _ type => c.scope.qualify type

/-- A data object, with the properties of the classes above it first. -/
def dataOf (t : ClassTable) (c : ClassEntry) : DataDecl where
  name := c.decl.name
  properties :=
    (t.lineage c.decl).reverse.foldl (fun m owner => m.merge (ownProperties owner)) .empty
  sourceFile := some c.path

/-- The value of a case, a truth value being an integer. -/
def caseOf (label : String) : Value → CaseValue
  | .int i => .int i
  | .bool b => .int (if b then 1 else 0)
  | .text s => .text s
  | _ => .text label

/-- An enum. -/
def enumOf (c : ClassEntry) : Except ReadFault EnumDecl := do
  return {
    name := c.decl.name
    cases := (← c.decl.cases).mapValues caseOf
    sourceFile := some c.path }

end ClassTable

namespace Project

/-- The file that a name comes from, if it is declared. -/
def sourceOf? (p : Project) (name : String) : Option String :=
  match p.requests.get? name with
  | some d => d.sourceFile
  | none =>
    match p.resources.get? name with
    | some d => d.sourceFile
    | none =>
      match p.collections.get? name with
      | some d => d.sourceFile
      | none =>
        match p.data.get? name with
        | some d => d.sourceFile
        | none => (p.enums.get? name).bind (·.sourceFile)

/-- The project with a class of a kind declared in it. -/
def declare (t : ClassTable) (p : Project) (kind : DeclKind) (c : ClassEntry) :
    Except ReadFault Project := do
  let name := c.decl.name
  match kind with
  | .request => return { p with requests := p.requests.insert name (← t.requestOf c) }
  | .resource =>
    match t.resourceOf? c with
    | some d => return { p with resources := p.resources.insert name d }
    -- a resource without the method that is read is left out
    | none => return p
  | .collection => return { p with collections := p.collections.insert name (t.collectionOf c) }
  | .data => return { p with data := p.data.insert name (t.dataOf c) }
  | .enum => return { p with enums := p.enums.insert name (← ClassTable.enumOf c) }

/-- What is noted while a class is declared. -/
def declareNotices (t : ClassTable) (p : Project) (kind : DeclKind) (c : ClassEntry) :
    List Notice :=
  let name := c.decl.name
  (match p.sourceOf? name with
    | some previous => [Notice.collision name c.path previous]
    | none => []) ++
  if kind = .resource && (t.resourceOf? c).isNone then [.noMethod name] else []

end Project

namespace ClassTable

/-- The classes that become types, with their kinds, in the order of their full names. -/
def declared (t : ClassTable) : List (DeclKind × ClassEntry) :=
  (sortedNames t.keys).filterMap fun name => do
    let c ← t.get? name
    let kind ← t.kind? c.decl
    if c.decl.abstract then none else some (kind, c)

/-- The project of the classes in a table. -/
def project (t : ClassTable) : Noting Project :=
  t.declared.foldlM (fun p d => do
    (p.declareNotices t d.1 d.2).forM Noting.note
    Noting.read (p.declare t d.1 d.2)) .empty

/-- The table with the classes of a source. -/
def addSource (t : ClassTable) (path : String) (source : String) : ClassTable :=
  (Source.classes source.toList).foldl (fun t c => t.insert c.fullName ⟨c, path⟩) t

/-- The classes of files, and a notice for each file that cannot be read. -/
def ofFiles (tree : FileTree) (paths : List Path) : ClassTable × List Notice :=
  paths.foldl (fun acc p =>
    match tree.readText p with
    | .ok source => (acc.1.addSource p.text source, acc.2)
    | .error _ => (acc.1, acc.2 ++ [.unreadableFile p.text])) (.empty, [])

end ClassTable

/-- What the sources below a directory come to. -/
structure Scan where
  /-- All classes. -/
  table : ClassTable
  /-- What they declare. -/
  project : Project

/-- The sources below a directory, read. -/
def scan (tree : FileTree) (dir : String) (takeIn leaveOut : List String) : Noting Scan := do
  match Files.discover tree dir takeIn leaveOut with
  | .error f => Noting.fault (.discovery f)
  | .ok paths =>
    let (table, unread) := ClassTable.ofFiles tree paths
    unread.forM Noting.note
    let project ← table.project
    Noting.note (.classesRead table.size project.size)
    return ⟨table, project⟩

end PayloadTypes
