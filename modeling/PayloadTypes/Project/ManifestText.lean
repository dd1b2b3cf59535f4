import PayloadTypes.Failure
import PayloadTypes.Json.Parser
import PayloadTypes.Text.Case
import PayloadTypes.Yaml.Parser
/-!
# Manifest texts

A manifest is a map, written in JSON or in YAML. Where it comes from may
tell which of the two it is; else JSON is tried first.
-/

namespace PayloadTypes

/-- What is known about the format of a manifest. -/
inductive ManifestFormat where
  /-- Nothing is known. -/
  | either
  /-- It is JSON. -/
  | json
  /-- It is YAML. -/
  | yaml
deriving DecidableEq, Repr

namespace ManifestFormat

/-- The format that the end of a file's name tells. -/
def ofExtension (extension : List Char) : ManifestFormat :=
  let e := String.ofList (Text.lower extension)
  if e = "json" then .json else if e = "yaml" ∨ e = "yml" then .yaml else .either

/-- The format that a media type tells. -/
def ofMediaType (type : String) : ManifestFormat :=
  let names (w : String) : Bool := Text.contains w.toList type.toList
  if names "json" then .json else if names "yaml" || names "yml" then .yaml else .either

end ManifestFormat

/-- The entries of a manifest. -/
abbrev ManifestEntries := List (Value × Value)

/-- The entries of a value, which has to be a map; `kind` is the word for any other value. -/
def entriesOf (kind : Value → String) : Value → Except Error ManifestEntries
  | .map es => .ok es
  | v => .error (.failure (.manifestNotMap (kind v)))

/-- The word for the kind of a YAML document that is no map. -/
def documentKind : Value → String
  | .null => "empty document"
  | v => v.kind

/-- What comes of a fault of a text that is in its format. -/
def unreadable {α : Type} (f : ReadFault) : Except Error α := .error (.fault (.unreadable f))

/-- The entries of a manifest in YAML. -/
def readYaml (content : List Char) : Except Error ManifestEntries :=
  match Yaml.parse content with
  | .ok v => entriesOf documentKind v
  | .error .malformed => .error (.failure .notParsed)
  | .error f => unreadable f

/-- The entries of a manifest. -/
def readManifest (format : ManifestFormat) (content : List Char) :
    Except Error ManifestEntries :=
  if format = .yaml then readYaml content
  else
    match Json.parse content with
    | .ok v => entriesOf Value.kind v
    | .error .malformed =>
      -- where the format is not told, what is no text of the one may be one of the other
      if format = .json then .error (.failure .notJson) else readYaml content
    | .error f => unreadable f

end PayloadTypes
