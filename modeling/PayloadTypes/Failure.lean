import PayloadTypes.Data.ReadFault
import PayloadTypes.Files.Discovery
import PayloadTypes.Validation
/-!
# Failures

What can go wrong, by its cause. A failure is told to the user in one
sentence and ends the run with the exit code of its kind. A fault is a
state of the input that nobody foresaw: data of a shape that cannot even be
checked, or files that are not where they have to be.
-/

namespace PayloadTypes

open Files (FileError GlobFault Utf8Fault)

/-- The kinds of failures. -/
inductive FailureKind where
  /-- Any failure. -/
  | general
  /-- The program is used in a way it is not meant for. -/
  | usage
  /-- Sources or manifests cannot be read. -/
  | source
  /-- A generated file is out of date. -/
  | drift
  /-- Settings cannot be read. -/
  | settings
deriving DecidableEq, Repr

/-- The exit code of a kind of failures. -/
def FailureKind.exitCode : FailureKind → Nat
  | .general => 1
  | .usage => 2
  | .source => 7
  | .drift => 8
  | .settings => 1

/-- A failure, by its cause. -/
inductive Failure where
  /-- Nothing tells where declarations come from. -/
  | nothingToRead
  /-- There is no such directory of sources. -/
  | noSourceDir (path : String)
  /-- A manifest has sections that are not known. -/
  | unknownSections (names : List String)
  /-- A section of a manifest is no map. -/
  | sectionNotMap (name : String)
  /-- The source of a resource cannot be read. -/
  | unreadableSource (path : String)
  /-- A manifest does not hold what it has to. -/
  | invalidManifest (issues : List Issue)
  /-- The standard input is blank. -/
  | blankInput
  /-- A server refuses a manifest. -/
  | httpStatus (status : Nat) (url : String)
  /-- A server cannot be reached. -/
  | notFetched (url : String) (reason : String)
  /-- There is no such manifest. -/
  | noManifest (path : String)
  /-- A manifest is blank. -/
  | blankManifest (path : String)
  /-- A manifest is no map. -/
  | manifestNotMap (kind : String)
  /-- A manifest is no JSON text. -/
  | notJson
  /-- A manifest is neither a JSON nor a YAML text. -/
  | notParsed
  /-- The settings of the user cannot be read. -/
  | userSettings (path : String) (issues : Option (List Issue))
  /-- The settings of the project cannot be read. -/
  | projectSettings (path : String)
  /-- The settings of the project are no map. -/
  | projectSettingsNotMap (path : String)
  /-- The settings in force do not hold what they have to. -/
  | invalidSettings (issues : List Issue)
  /-- A generated file is out of date. -/
  | outOfDate (path : String)

namespace Failure

/-- The kind of a failure. -/
def kind : Failure → FailureKind
  | .nothingToRead => .usage
  | .userSettings .. | .projectSettings _ | .projectSettingsNotMap _ | .invalidSettings _ =>
    .settings
  | .outOfDate _ => .drift
  | _ => .source

/-- The sections of a manifest. -/
def sections : List String := ["requests", "resources", "collections", "data", "enums"]

/-- The sentence that tells a failure. -/
def message : Failure → String
  | .nothingToRead =>
    "No source directory or manifest configured. Pass --source-dir or run: ruletype init"
  | .noSourceDir path => "Source directory not found: " ++ path
  | .unknownSections names =>
    "Unknown manifest section(s): " ++ ", ".intercalate names ++ ". Expected: " ++
      ", ".intercalate sections
  | .sectionNotMap name => "Manifest section '" ++ name ++ "' must be a mapping"
  | .unreadableSource path => "Failed to read resource source " ++ path
  | .invalidManifest _ => "Invalid manifest"
  | .blankInput => "No input received from stdin"
  | .httpStatus status url =>
    "HTTP " ++ String.ofList (Text.natDigits status) ++ " fetching manifest from " ++ url
  | .notFetched url reason => "Failed to fetch manifest from " ++ url ++ ": " ++ reason
  | .noManifest path => "Manifest file not found: " ++ path
  | .blankManifest path => "Manifest file is empty: " ++ path
  | .manifestNotMap kind => "Manifest must be a JSON/YAML object (got " ++ kind ++ ")"
  | .notJson => "Invalid JSON"
  | .notParsed => "Failed to parse manifest as JSON or YAML"
  | .userSettings path _ => "Invalid global config at " ++ path
  | .projectSettings path => "Invalid project config at " ++ path
  | .projectSettingsNotMap path =>
    "Invalid project config at " ++ path ++ ": expected a JSON object"
  | .invalidSettings _ => "Invalid generator configuration"
  | .outOfDate path => path ++ " is out of date."

/-- The exit code of a failure. -/
def exitCode (f : Failure) : Nat := f.kind.exitCode

/-- The issues that a failure is made of, if it comes from a check of data. -/
def issues? : Failure → Option (List Issue)
  | .invalidManifest issues => some issues
  | .invalidSettings issues => some issues
  | .userSettings _ issues => issues
  | _ => none

end Failure

/-- A state of the input that nobody foresaw. -/
inductive Fault where
  /-- A section of a manifest has a name that is no text. -/
  | sectionName
  /-- An entry of a manifest is no collection. -/
  | entryNotCollection
  /-- An entry of a manifest lists what is no pair. -/
  | notPair
  /-- An entry of a manifest lists something with parts in the place of a key. -/
  | keyWithParts
  /-- The rules of a request are no map. -/
  | rulesNotMap
  /-- The file of a resource is no text. -/
  | fileNotText
  /-- A manifest holds bytes that are no text. -/
  | manifestEncoding (f : Utf8Fault)
  /-- The bytes of a manifest do not tell their order. -/
  | noByteOrder
  /-- A text is in its format and has no value. -/
  | unreadable (f : ReadFault)
  /-- A pattern of paths cannot be read. -/
  | pattern (f : GlobFault)
  /-- An operation on files fails. -/
  | file (e : FileError)
deriving DecidableEq, Repr

/-- The fault of sources that cannot be found. -/
def Fault.discovery : Files.DiscoveryFault → Fault
  | .pattern f => .pattern f
  | .file e => .file e

/-- The sentence that tells an error of files. -/
def Files.FileError.message : FileError → String
  | .notFound => "There is no such file."
  | .isDirectory => "There is a directory where a file is wanted."
  | .notDirectory => "There is a file where a directory is wanted."
  | .exists => "There is a file where a directory is to be made."
  | .busy => "The directory is in use."
  | .tooLong => "A name or a path is too long."
  | .zeroCharacter => "A path holds the character 0."

/-- The sentence that tells a fault. -/
def Fault.message : Fault → String
  | .sectionName => "A section of the manifest has a name that is no text."
  | .entryNotCollection => "An entry of the manifest is no collection."
  | .notPair => "An entry of the manifest lists what is no pair."
  | .keyWithParts => "An entry of the manifest lists something with parts as a key."
  | .rulesNotMap => "The rules of a request are no map."
  | .fileNotText => "The file of a resource is no text."
  | .manifestEncoding f => "The manifest is no text: " ++ f.message
  | .noByteOrder => "The bytes of the manifest do not tell their order."
  | .unreadable f => f.message
  | .pattern .danglingEscape => "A pattern ends in an escape."
  | .pattern .noSegments => "A pattern has no segments."
  | .pattern .badRange => "A pattern has a range that goes backwards."
  | .file e => e.message

/-- What ends a run early. -/
inductive Error where
  /-- A failure. -/
  | failure (f : Failure)
  /-- A fault. -/
  | fault (f : Fault)

end PayloadTypes
