import PayloadTypes.Notice
import PayloadTypes.Project.Check
import PayloadTypes.Project.ManifestText
import PayloadTypes.Source.Member
import PayloadTypes.Symbols
/-!
# Projects from manifests

A manifest has a section for each kind of declaration. An entry of a section
declares what its key names; it may give another name itself. A resource may
name the file that its source is in, beside the manifest.
-/

namespace PayloadTypes

open Files (FileTree Path)

/-- The name of a section, which has to be a text. -/
def sectionName : Value → Except Fault String
  | .text s => .ok s
  | _ => .error .sectionName

/-- The key is not that of a section. -/
def isUnknownSection : Value → Bool
  | .text s => !Failure.sections.contains s
  | _ => true

/-- The sections of a manifest that are not known, in order. -/
def unknownSections (es : ManifestEntries) : Except Fault (List String) :=
  (((es.map Prod.fst).filter isUnknownSection).mapM sectionName).map sortedNames

/-- The entries of a section, none if it is not there or empty. -/
def sectionEntries (es : ManifestEntries) (name : String) : Except Failure ManifestEntries :=
  let v := (Value.get? name es).getD .null
  if !v.isTruthy then .ok []
  else
    match v with
    | .map es => .ok es
    | _ => .error (.sectionNotMap name)

/-- The parts of a value that is gone through: items, characters or keys. -/
def partsOf : Value → Except Fault (List Value)
  | .list vs => .ok vs
  | .text s => .ok (s.toList.map fun c => .text (String.singleton c))
  | .map es => .ok (es.map Prod.fst)
  | _ => .error .entryNotCollection

/-- The key and the value that two parts are; what has items or entries is no key. -/
def pairOfParts : List Value → Except Fault (Value × Value)
  | [.list _, _] => .error .keyWithParts
  | [.map _, _] => .error .keyWithParts
  | [k, v] => .ok (k, v)
  | _ => .error .notPair

/-- The key and the value that an item lists. -/
def pairOfItem (item : Value) : Except Fault (Value × Value) := do pairOfParts (← partsOf item)

/-- The entries that an entry of a section stands for: those of a map, or pairs in a list. -/
def declarationEntries (entry : Value) : Except Fault (List (Value × Value)) :=
  if !entry.isTruthy then .ok []
  else
    match entry with
    | .map es => .ok es
    -- an empty list is not truthy, so there is a pair to read
    | .list items => (items.mapM pairOfItem).map Value.ofEntries
    | .text _ => .error .notPair
    | _ => .error .entryNotCollection

/-- The entries with one under a name, unless there is one. -/
def withDefault (name : String) (v : Value) (es : List (Value × Value)) : List (Value × Value) :=
  if (Value.get? name es).isSome then es else Value.put (.text name) v es

/-- What the entries of a request have to be before they can be checked. -/
def requestDraft (es : List (Value × Value)) : Noting (List (Value × Value)) :=
  match (Value.get? "rules" es).getD .null with
  | .map rules =>
    if rules.all fun e => Rule.isRule e.2 then return es
    else Noting.fault (.unreadable .longInteger)
  | v => if v.isTruthy then Noting.fault .rulesNotMap else return es

/-- The method of a resource in the text of a file, or all of the text. -/
def resourceSource (path : Path) (text : String) : Noting String :=
  match Source.methodSource? text.toList "toArray" with
  | some s => return String.ofList s
  | none => do
    Noting.note (.wholeFile path.text)
    return text

/-- The path of a file, which starts at `base` unless it is absolute. -/
def filePath (base : Option Path) (file : String) : Path :=
  (base.getD ⟨.here, []⟩).join (Path.ofText file)

/-- The source of a resource in a file. -/
def readResource (tree : FileTree) (base : Option Path) (file : String) : Noting String :=
  match tree.readText (filePath base file) with
  | .ok text => resourceSource (filePath base file) text
  | .error (.file .zeroCharacter) => Noting.fault (.file .zeroCharacter)
  | .error _ => Noting.fail (.unreadableSource (filePath base file).text)

/-- The entries of a resource, the file that it names being read. -/
def resourceDraft (tree : FileTree) (base : Option Path) (es : List (Value × Value)) :
    Noting (List (Value × Value)) :=
  match Value.get? "file" es with
  | none => return es
  | some (.text file) => do
    let source ← readResource tree base file
    -- the text of the file takes the place of a source that is given, its name does not
    return withDefault "source_file" (.text file) (Value.put (.text "source") (.text source) es)
  | some _ => Noting.fault .fileNotText

/-- The entries of a section, each made ready to be checked. -/
def sectionDraft (es : ManifestEntries) (name : String)
    (draft : List (Value × Value) → Noting (List (Value × Value))) :
    Noting (List (Value × List (Value × Value))) :=
  match sectionEntries es name with
  | .error f => Noting.fail f
  | .ok entries => entries.mapM fun e => do
    match declarationEntries e.2 with
    | .error f => Noting.fault f
    | .ok own => return (e.1, ← draft (withDefault "name" e.1 own))

/-- The declarations of a section, each checked. -/
def checkSection {α : Type} (name : String)
    (check : List Step → List (Value × Value) → Checked α)
    (drafts : List (Value × List (Value × Value))) : Checked (OrderedMap α) :=
  checkEntries [.key name]
    (fun here v =>
      match v with
      | .map es => check here es
      | _ => .refuse here .settings)
    (drafts.map fun d => (d.1, .map d.2))

/-- The sections of a manifest, their entries made ready to be checked. -/
structure Drafts where
  /-- The requests. -/
  requests : List (Value × List (Value × Value))
  /-- The resources. -/
  resources : List (Value × List (Value × Value))
  /-- The collections. -/
  collections : List (Value × List (Value × Value))
  /-- The data objects. -/
  data : List (Value × List (Value × Value))
  /-- The enums. -/
  enums : List (Value × List (Value × Value))

/-- The sections of a manifest, made ready one after the other. Files are read from `base` on. -/
def manifestDrafts (tree : FileTree) (base : Option Path) (es : ManifestEntries) :
    Noting Drafts := do
  let requests ← sectionDraft es "requests" requestDraft
  let resources ← sectionDraft es "resources" (resourceDraft tree base)
  let collections ← sectionDraft es "collections" pure
  let data ← sectionDraft es "data" pure
  let enums ← sectionDraft es "enums" pure
  return { requests, resources, collections, data, enums }

open Checked (also) in
/-- The project of sections that were made ready. -/
def checkDrafts (d : Drafts) : Checked Project :=
  let make : Checked _ := .ok Project.mk
  make
    |> also (checkSection "requests" checkRequest d.requests)
    |> also (checkSection "resources" checkResource d.resources)
    |> also (checkSection "collections" checkCollection d.collections)
    |> also (checkSection "data" checkData d.data)
    |> also (checkSection "enums" checkEnum d.enums)

/-- The project that a manifest declares. -/
def projectOfManifest (tree : FileTree) (base : Option Path) (es : ManifestEntries) :
    Noting Project := do
  match unknownSections es with
  | .error f => Noting.fault f
  | .ok [] =>
    match checkDrafts (← manifestDrafts tree base es) with
    | .ok p => return p
    | .error issues => Noting.fail (.invalidManifest issues)
  | .ok names => Noting.fail (.unknownSections names)

end PayloadTypes
