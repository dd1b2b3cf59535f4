import PayloadTypes.Project.Manifest
import PayloadTypes.Project.MediaType
/-!
# Where manifests come from

A manifest is read from a file, from a server, or, under the name `-`, from
the standard input.
-/

namespace PayloadTypes

open Files (FileTree Path ReadError)

/-- What comes of asking a server. -/
inductive Fetched where
  /-- There is no answer, for a reason. -/
  | refused (reason : String)
  /-- The server answers with a status, a media type and the bytes of a text. -/
  | answered (status : Nat) (mediaType : String) (body : ByteArray)

/-- What a run reads from. -/
structure Inputs where
  /-- The files. -/
  tree : FileTree
  /-- The text on the standard input. -/
  standardInput : String
  /-- What a server gives for an address. -/
  fetch : String → Fetched

/-- A text in which there is nothing but blanks. -/
def isBlankText (s : String) : Bool := (Text.trim s.toList).isEmpty

/-- A result as a run. -/
def Noting.ofExcept {α : Type} : Except Error α → Noting α
  | .ok a => return a
  | .error e => throw e

/-- The entries of the manifest on the standard input. -/
def manifestOnInput (text : String) : Except Error ManifestEntries :=
  if isBlankText text then .error (.failure .blankInput) else readManifest .either text.toList

/-- The entries of the manifest that a server gives. -/
def manifestFetched (url : String) : Fetched → Except Error ManifestEntries
  | .refused reason => .error (.failure (.notFetched url reason))
  | .answered status mediaType body =>
    if status < 200 ∨ 300 ≤ status then .error (.failure (.httpStatus status url))
    else
      match (MediaType.charset mediaType).decode? body.toList with
      | some text => readManifest (.ofMediaType mediaType) text
      | none => .error (.fault .noByteOrder)

/-- The entries of the manifest in a file. -/
def manifestInFile (tree : FileTree) (file : String) : Noting ManifestEntries := do
  let path := Path.ofText file
  if !(← Noting.look (tree.isFile path)) then Noting.fail (.noManifest file)
  match tree.readText path with
  | .error (.file e) => Noting.fault (.file e)
  | .error (.encoding f) => Noting.fault (.manifestEncoding f)
  | .ok text =>
    if isBlankText text then Noting.fail (.blankManifest file)
    else Noting.ofExcept (readManifest (.ofExtension path.extension.toList) text.toList)

/-- The source is an address of a server. -/
def isAddress (source : String) : Bool :=
  Text.startsWith "http://".toList source.toList || Text.startsWith "https://".toList source.toList

/-- The project that the manifest of a source declares. -/
def loadManifest (inputs : Inputs) (source : String) : Noting Project := do
  if source = "-" then
    projectOfManifest inputs.tree none (← Noting.ofExcept (manifestOnInput inputs.standardInput))
  else if isAddress source then
    projectOfManifest inputs.tree none
      (← Noting.ofExcept (manifestFetched source (inputs.fetch source)))
  else
    let es ← manifestInFile inputs.tree source
    projectOfManifest inputs.tree (some (inputs.tree.resolve (Path.ofText source)).parent) es

end PayloadTypes
