import PayloadTypes.Failure
import PayloadTypes.Files.Change
import PayloadTypes.Json.Parser
import PayloadTypes.Json.Printer
import PayloadTypes.Settings.Basic
import PayloadTypes.Settings.Environment
/-!
# Layers of settings

Settings come in layers. What the command line sets stands over what the
environment sets, that over the settings of the project, those over the
settings of the user, and those over the usual ones.
-/

namespace PayloadTypes

open Files (Change FileTree Path)
open Checked (also)

/-- The settings of a user. -/
structure UserSettings where
  /-- The format of what is printed. -/
  format : String
  /-- The settings of generations. -/
  settings : Settings
deriving DecidableEq, Repr

/-- The text of a file, if there is one. -/
def textOfFile? (tree : FileTree) (path : Path) :
    Except Files.FileError (Option (Except Files.Utf8Fault String)) :=
  match tree.readText path with
  | .ok text => .ok (some (.ok text))
  | .error (.encoding f) => .ok (some (.error f))
  | .error (.file .tooLong) => .error .tooLong
  | .error (.file _) => .ok none

namespace UserSettings

/-- The settings of a user who has set nothing. -/
def standard : UserSettings := ⟨"auto", .standard⟩

/-- The settings of a user as a value. -/
def toValue (u : UserSettings) : Value := .map [
  (.text "output", .map [(.text "format", .text u.format)]),
  (.text "generator", u.settings.toValue)]

/-- The format that a value holds. -/
def checkFormat (place : List Step) : Value → Checked String
  | .map es => checkField place es "format" checkText standard.format
  | _ => .refuse place .settings

/-- The settings of a user that a value holds. -/
def check : Value → Checked UserSettings
  | .map es =>
    let make : Checked _ := .ok UserSettings.mk
    make
      |> also (checkField [] es "output" checkFormat standard.format)
      |> also (checkField [] es "generator" Settings.check standard.settings)
  | _ => .refuse [] .settings

/-- The file of a user's settings. -/
def file (e : Environment) : Path := e.settingsDir.child "config.json"

/-- The settings of the user that a text holds. -/
def ofText (path : Path) (text : String) : Except Failure UserSettings :=
  match Json.parse text.toList with
  | .error _ => .error (.userSettings path.text none)
  | .ok v => (check v).mapError fun issues => .userSettings path.text (some issues)

/-- The settings of the user, the usual ones if there is no file of them. -/
def read (e : Environment) (tree : FileTree) : Except Error UserSettings :=
  let path := file e
  match textOfFile? tree path with
  | .error x => .error (.fault (.file x))
  | .ok none => .ok standard
  | .ok (some (.error _)) => .error (.failure (.userSettings path.text none))
  | .ok (some (.ok text)) => (ofText path text).mapError .failure

end UserSettings

/-- The text of settings in a file. -/
def settingsText (v : Value) : String := Json.render .stored v ++ "\n"

/-- The settings of the user are written to their file. -/
def UserSettings.write (u : UserSettings) (e : Environment) : Change Unit :=
  Files.writeText (UserSettings.file e) (settingsText u.toValue)

/-- The name of the file of a project's settings. -/
def projectFile : String := "ruletype.json"

/-- The file of the settings of the project that one works in. -/
def projectPath (tree : FileTree) : Path := ⟨.root, tree.here ++ [projectFile]⟩

/-- What the settings of the project in a text set. -/
def projectEntries (path : Path) (text : String) : Except Failure (List (Value × Value)) :=
  match Json.parse text.toList with
  | .error _ => .error (.projectSettings path.text)
  | .ok (.map es) => .ok es
  | .ok _ => .error (.projectSettingsNotMap path.text)

/-- What the settings of the project set, if there is a file of them. -/
def readProject (tree : FileTree) : Except Error (Option (List (Value × Value))) :=
  let path := projectPath tree
  match textOfFile? tree path with
  | .error x => .error (.fault (.file x))
  | .ok none => .ok none
  | .ok (some (.error _)) => .error (.failure (.projectSettings path.text))
  | .ok (some (.ok text)) => ((projectEntries path text).map some).mapError .failure

/-- Settings are written to a file. -/
def Settings.write (s : Settings) (path : Path) : Change Unit :=
  Files.writeText path (settingsText s.toValue)

/-- What the command line sets. -/
structure Overrides where
  /-- The directory of sources. -/
  sourceDir : Option String
  /-- The file to write. -/
  output : Option String
  /-- Where a manifest is. -/
  manifest : Option String
  /-- The format of what is printed. -/
  format : Option String
deriving DecidableEq, Repr

/-- A layer that sets nothing. -/
def Overrides.none : Overrides := ⟨Option.none, Option.none, Option.none, Option.none⟩

/-- What a layer sets in a generation, by the names of the settings. -/
def Overrides.entries (o : Overrides) : List (String × String) :=
  [("source_dir", o.sourceDir), ("output", o.output), ("manifest", o.manifest)].filterMap
    fun p => p.2.map fun v => (p.1, v)

/-- What the environment sets in a generation. -/
def Environment.overrides (e : Environment) : Overrides where
  sourceDir := e.get? "RULETYPE_SOURCE_DIR"
  output := e.get? "RULETYPE_OUTPUT"
  manifest := e.get? "RULETYPE_MANIFEST"
  format := none

/-- Entries with those of a layer put over them. -/
def overlay (es more : List (Value × Value)) : List (Value × Value) :=
  more.foldl (fun m e => Value.put e.1 e.2 m) es

/-- Entries with what a layer sets put over them. -/
def overlayTexts (es : List (Value × Value)) (o : Overrides) : List (Value × Value) :=
  overlay es (o.entries.map fun e => (.text e.1, .text e.2))

/-- The settings in force of the layers below the command line's and those on it. -/
def settingsOf (user : UserSettings) (project : Option (List (Value × Value)))
    (fromEnvironment fromCommandLine : Overrides) : Except Failure Settings :=
  let merged :=
    overlayTexts
      (overlayTexts (overlay user.settings.entries (project.getD [])) fromEnvironment)
      fromCommandLine
  (Settings.checkEntries [] merged).mapError .invalidSettings

/-- The settings in force. -/
def resolveSettings (e : Environment) (tree : FileTree) (cli : Overrides) :
    Except Error (UserSettings × Settings) := do
  let user ← UserSettings.read e tree
  let project ← readProject tree
  let settings ← (settingsOf user project e.overrides cli).mapError .failure
  return ({ user with format := cli.format.getD user.format }, settings)

end PayloadTypes
