import PayloadTypes.Validation
/-!
# Settings

The settings of one generation: where declarations are read from and
written to, what is left out, and how types are named.
-/

namespace PayloadTypes

/-- The settings of one generation. -/
structure Settings where
  /-- The directory of sources. -/
  sourceDir : Option String
  /-- Patterns of the files to read. -/
  takeIn : List String
  /-- Patterns of the files to leave out. -/
  leaveOut : List String
  /-- Where a manifest is. -/
  manifest : Option String
  /-- The file to write. -/
  output : String
  /-- A declared type that allows null makes its field optional instead. -/
  nullAsOptional : Bool
  /-- Enums are written as enums and not as unions. -/
  nativeEnums : Bool
  /-- The end of a resource's name. -/
  resourceSuffix : String
  /-- The end of a collection's name. -/
  collectionSuffix : String
  /-- The end of a data object's name. -/
  dataSuffix : String
  /-- Resources of which the item type is not known. -/
  genericTypes : List String
  /-- Resources and collections get a second type with the envelope of a response. -/
  responseAliases : Bool
deriving DecidableEq, Repr

namespace Settings

open Checked (also)

/-- The settings where nothing else is set. -/
def standard : Settings where
  sourceDir := none
  takeIn := ["**/*.php"]
  leaveOut := ["**/vendor/**", "**/node_modules/**", "**/storage/**", "**/tests/**"]
  manifest := none
  output := "resources/types/generated.d.ts"
  nullAsOptional := false
  nativeEnums := false
  resourceSuffix := "Resource"
  collectionSuffix := "Collection"
  dataSuffix := "Data"
  genericTypes := ["JsonResource"]
  responseAliases := true

/-- A list of texts as a value. -/
def textList (ss : List String) : Value := .list (ss.map .text)

/-- A text or nothing as a value. -/
def textOrNull : Option String → Value
  | some s => .text s
  | none => .null

/-- The settings as the entries of a map. -/
def entries (s : Settings) : List (Value × Value) := [
  (.text "source_dir", textOrNull s.sourceDir),
  (.text "include", textList s.takeIn),
  (.text "exclude", textList s.leaveOut),
  (.text "manifest", textOrNull s.manifest),
  (.text "output", .text s.output),
  (.text "null_as_optional", .bool s.nullAsOptional),
  (.text "native_enums", .bool s.nativeEnums),
  (.text "resource_suffix", .text s.resourceSuffix),
  (.text "collection_suffix", .text s.collectionSuffix),
  (.text "data_suffix", .text s.dataSuffix),
  (.text "generic_resource_types", textList s.genericTypes),
  (.text "emit_response_aliases", .bool s.responseAliases)]

/-- The settings as a value. -/
def toValue (s : Settings) : Value := .map s.entries

/-- The settings that the entries of a map hold; what is not there is as usual. -/
def checkEntries (place : List Step) (es : List (Value × Value)) : Checked Settings :=
  let d := standard
  let make : Checked _ := .ok Settings.mk
  make
    |> also (checkField place es "source_dir" checkText? d.sourceDir)
    |> also (checkField place es "include" checkTexts d.takeIn)
    |> also (checkField place es "exclude" checkTexts d.leaveOut)
    |> also (checkField place es "manifest" checkText? d.manifest)
    |> also (checkField place es "output" checkText d.output)
    |> also (checkField place es "null_as_optional" checkTruth d.nullAsOptional)
    |> also (checkField place es "native_enums" checkTruth d.nativeEnums)
    |> also (checkField place es "resource_suffix" checkText d.resourceSuffix)
    |> also (checkField place es "collection_suffix" checkText d.collectionSuffix)
    |> also (checkField place es "data_suffix" checkText d.dataSuffix)
    |> also (checkField place es "generic_resource_types" checkTexts d.genericTypes)
    |> also (checkField place es "emit_response_aliases" checkTruth d.responseAliases)

/-- The settings that a value holds. -/
def check (place : List Step) : Value → Checked Settings
  | .map es => checkEntries place es
  | _ => .refuse place .settings

end Settings

end PayloadTypes
