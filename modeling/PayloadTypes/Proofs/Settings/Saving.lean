import PayloadTypes.Proofs.Files.Keeping
import PayloadTypes.Proofs.Files.TextFiles
import PayloadTypes.Proofs.Json.RoundTrip
import PayloadTypes.Proofs.Settings.Reading
/-!
# Settings that are saved

Settings that are written to the file of a project are the ones in force there,
whatever the user has set and whatever texts they hold, unless the environment or
the command line sets something (`resolveSettings_of_write`).
-/

namespace PayloadTypes

open Files (FileError FileTree Path)
open Json (IsTextual Writes)
open Value (named)

variable {s : Settings} {m : OrderedMap Value} {place : List Step} {key : String}

/-! ## Settings as values -/

namespace Settings

theorem isTextual_textOrNull (o : Option String) : IsTextual (textOrNull o) := by
  cases o with
  | none => exact .null
  | some s => exact .text s

theorem isTextual_textList (ss : List String) : IsTextual (textList ss) := by
  refine .list fun v hv => ?_
  obtain ⟨s, -, rfl⟩ := List.mem_map.mp hv
  exact .text s

theorem isTextual_toValue (s : Settings) : IsTextual s.toValue := by
  refine .map s.fields fun e he => ?_
  simp only [fields, List.mem_cons, List.not_mem_nil, or_false] at he
  rcases he with rfl | rfl | rfl | rfl | rfl | rfl | rfl | rfl | rfl | rfl | rfl | rfl
  · exact isTextual_textOrNull _
  · exact isTextual_textList _
  · exact isTextual_textList _
  · exact isTextual_textOrNull _
  · exact .text _
  · exact .bool _
  · exact .bool _
  · exact .text _
  · exact .text _
  · exact .text _
  · exact isTextual_textList _
  · exact .bool _

/-- **Settings are read off a map that has all of them**, whatever else it has. -/
theorem checkEntries_of_get? (h : ∀ key v, s.fields.get? key = some v → m.get? key = some v)
    (place : List Step) : checkEntries place (named m.entries) = .ok s :=
  checkEntries_eq_ok_iff.mpr {
    sourceDir := checkField_of_get? (h "source_dir" _ rfl) (checkText?_textOrNull · _) _ _
    takeIn := checkField_of_get? (h "include" _ rfl) (checkTexts_textList · _) _ _
    leaveOut := checkField_of_get? (h "exclude" _ rfl) (checkTexts_textList · _) _ _
    manifest := checkField_of_get? (h "manifest" _ rfl) (checkText?_textOrNull · _) _ _
    output := checkField_of_get? (h "output" _ rfl) (checkText_text · _) _ _
    nullAsOptional := checkField_of_get? (h "null_as_optional" _ rfl) (checkTruth_bool · _) _ _
    nativeEnums := checkField_of_get? (h "native_enums" _ rfl) (checkTruth_bool · _) _ _
    resourceSuffix := checkField_of_get? (h "resource_suffix" _ rfl) (checkText_text · _) _ _
    collectionSuffix := checkField_of_get? (h "collection_suffix" _ rfl) (checkText_text · _) _ _
    dataSuffix := checkField_of_get? (h "data_suffix" _ rfl) (checkText_text · _) _ _
    genericTypes :=
      checkField_of_get? (h "generic_resource_types" _ rfl) (checkTexts_textList · _) _ _
    responseAliases :=
      checkField_of_get? (h "emit_response_aliases" _ rfl) (checkTruth_bool · _) _ _ }

end Settings

/-! ## Layers -/

theorem overlayTexts_none (es : List (Value × Value)) : overlayTexts es .none = es := rfl

/-- **The settings of a project hide all that the user has set.** -/
theorem settingsOf_entries (user : UserSettings) (s : Settings) :
    settingsOf user (some s.entries) .none .none = .ok s := by
  have hmerged := Settings.checkEntries_of_get? (s := s) (m := user.settings.fields.merge s.fields)
    (fun key v hkey => by rw [OrderedMap.get?_merge, hkey, Option.some_or]) []
  simp only [settingsOf, overlayTexts_none, Option.getD_some, Settings.entries_eq_named,
    overlay_named, hmerged]
  rfl

/-! ## The file of a project -/

theorem writes_settingsText {v : Value} (h : IsTextual v) :
    Writes (settingsText v).toList (Json.tokensOf v) := by
  have hfeed : Writes ['\n'] [] := Json.writes_space rfl (by decide)
  have hall := (Json.writes_renderAt (l := .stored) h 0).append hfeed
  simpa [settingsText, Json.render] using hall

/-- **Settings in a file are read as they were written.** -/
theorem readProject_of_find {tree : FileTree}
    (h : tree.find (projectPath tree) = .ok (.file (settingsText s.toValue).toUTF8)) :
    readProject tree = .ok (some s.entries) := by
  have hwrites := writes_settingsText s.isTextual_toValue
  have htext := Files.readText_of_find h
  rw [Files.unifyLineEnds_eq_self hwrites.unbroken, String.ofList_toList] at htext
  have hentries : projectEntries (projectPath tree) (settingsText s.toValue) = .ok s.entries := by
    rw [projectEntries, Json.parse_of_writes s.isTextual_toValue hwrites, Settings.toValue]
  have hfile : textOfFile? tree (projectPath tree) = .ok (some (.ok (settingsText s.toValue))) := by
    rw [textOfFile?, htext]
  unfold readProject
  simp only [hfile, hentries]
  rfl

/-- **Settings that are saved are the ones in force**, whatever the user has set, if neither the
environment nor the command line sets anything. -/
theorem resolveSettings_of_write {e : Environment} {tree saved opened : FileTree}
    {user : UserSettings}
    (hwrite : (s.write (projectPath tree)).apply tree = (.ok (), saved))
    (hopen : (Files.makeDirs e.settingsDir).apply saved = (.ok (), opened))
    (huser : UserSettings.read e opened = .ok user) (henv : e.overrides = .none) :
    resolveSettings e opened .none = .ok (user, s) := by
  have hsaved := Files.find_of_writeText hwrite
  obtain ⟨hfound, hhere⟩ := Files.find_of_makeDirs hopen hsaved
  -- one still works in the directory where the settings were written
  have hpath : projectPath opened = projectPath tree := by
    rw [projectPath, projectPath, hhere, Files.here_of_writeText hwrite]
  have hproject : readProject opened = .ok (some s.entries) :=
    readProject_of_find (by rw [hpath]; exact hfound)
  simp only [resolveSettings, huser, hproject, henv, settingsOf_entries, bind, Except.bind,
    Except.mapError]
  rfl

/-- Where nothing is set but the home directory. -/
def plainEnvironment : Environment := ⟨OrderedMap.empty.insert "HOME" "/home", true⟩

/-- A directory to work in, and a home directory that is not there yet. -/
def workTree : FileTree := ⟨.dir [("work", .dir [])], ["work"]⟩

/-- The tree in which settings were saved. -/
def savedTree (s : Settings) : FileTree :=
  ⟨.dir [("work", .dir [(projectFile, .file (settingsText s.toValue).toUTF8)])], ["work"]⟩

/-- The tree in which the directory of the user's settings was made, too. -/
def openedTree (s : Settings) : FileTree where
  root := .dir [("work", .dir [(projectFile, .file (settingsText s.toValue).toUTF8)]),
    ("home", .dir [(".config", .dir [("ruletype", .dir [])])])]
  here := ["work"]

/-- Settings with quotes, backslashes, control characters and characters beyond the first plane. -/
def markedSettings : Settings :=
  { Settings.standard with
    sourceDir := some "\"app\\src\""
    takeIn := []
    output := "types\x07/\r\n😀.d.ts" }

theorem resolveSettings_markedSettings :
    (markedSettings.write (projectPath workTree)).apply workTree =
        (.ok (), savedTree markedSettings) ∧
      (Files.makeDirs plainEnvironment.settingsDir).apply (savedTree markedSettings) =
        (.ok (), openedTree markedSettings) ∧
      UserSettings.read plainEnvironment (openedTree markedSettings) = .ok .standard ∧
      plainEnvironment.overrides = .none ∧
      resolveSettings plainEnvironment (openedTree markedSettings) .none =
        .ok (.standard, markedSettings) := by
  have hwrite (s : Settings) :
      (s.write (projectPath workTree)).apply workTree = (.ok (), savedTree s) := rfl
  have hopen (s : Settings) :
      (Files.makeDirs plainEnvironment.settingsDir).apply (savedTree s) =
        (.ok (), openedTree s) := rfl
  have huser (s : Settings) :
      UserSettings.read plainEnvironment (openedTree s) = .ok .standard := rfl
  have henv : plainEnvironment.overrides = .none := rfl
  exact ⟨hwrite _, hopen _, huser _, henv,
    resolveSettings_of_write (hwrite _) (hopen _) (huser _) henv⟩

end PayloadTypes
