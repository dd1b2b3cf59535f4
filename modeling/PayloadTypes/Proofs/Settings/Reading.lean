import PayloadTypes.Proofs.Data.Outcome
import PayloadTypes.Proofs.Json.ReadMaps
import PayloadTypes.Settings.Layers
/-!
# Settings that are read

Each setting is read off what stands under its name (`Settings.AreRead`), and what
stands under other names does not matter (`AreRead.get?_fields_congr`). The entries
are those of the map in a file, and there are none where there is no file
(`UserSettings.areRead_of_read`).
-/

namespace PayloadTypes

open Files (FileTree Path)
open Value (named)

variable {α β : Type} {m : OrderedMap Value} {place : List Step} {es es' : List (Value × Value)}
  {key : String} {s s' : Settings} {e : Environment} {tree : FileTree} {user : UserSettings}

/-! ## Fields under texts -/

/-- A field is what is read under its key. -/
theorem checkField_of_get? {α : Type} {check : List Step → Value → Checked α} {v : Value} {a : α}
    (h : m.get? key = some v) (hv : ∀ place, check place v = .ok a) (place : List Step)
    (default : α) : checkField place (named m.entries) key check default = .ok a := by
  have hget : Value.get? key (named m.entries) = some v := (Value.get?_named key _).trans h
  rw [checkField, hget]
  exact hv _

theorem checkText_text (place : List Step) (s : String) : checkText place (.text s) = .ok s := rfl

theorem checkTruth_bool (place : List Step) (b : Bool) : checkTruth place (.bool b) = .ok b := rfl

theorem checkText?_textOrNull (place : List Step) (o : Option String) :
    checkText? place (Settings.textOrNull o) = .ok o := by
  cases o <;> rfl

theorem checkTexts_textList (place : List Step) (ss : List String) :
    checkTexts place (Settings.textList ss) = .ok ss := by
  rw [Settings.textList, checkTexts]
  generalize 0 = n
  induction ss generalizing n with
  | nil => rfl
  | cons s ss ih =>
    rw [List.map_cons, List.zipIdx_cons, List.map_cons, Checked.all, ih]
    rfl

/-! ## Parts that were checked -/

theorem Checked.also_eq_ok_iff {a : Checked α} {f : Checked (α → β)} {b : β} :
    Checked.also a f = .ok b ↔ ∃ g x, f = .ok g ∧ a = .ok x ∧ g x = b := by
  cases f <;> cases a <;> simp [Checked.also, Checked.apply]

/-- What is under other keys does not matter. -/
theorem checkField_congr (h : Value.get? key es = Value.get? key es') (place : List Step)
    (check : List Step → Value → Checked α) (default : α) :
    checkField place es key check default = checkField place es' key check default := by
  rw [checkField, checkField, h]

theorem checkText_eq_ok {v : Value} {t : String} (h : checkText place v = .ok t) : v = .text t := by
  cases v <;> cases h
  rfl

theorem checkText?_eq_ok {v : Value} {o : Option String} (h : checkText? place v = .ok o) :
    v = Settings.textOrNull o := by
  cases v with
  | null | text => cases h; rfl
  | _ => cases h

namespace Settings

/-- The settings under their names. -/
def fields (s : Settings) : OrderedMap Value where
  entries := [
    ("source_dir", textOrNull s.sourceDir),
    ("include", textList s.takeIn),
    ("exclude", textList s.leaveOut),
    ("manifest", textOrNull s.manifest),
    ("output", .text s.output),
    ("null_as_optional", .bool s.nullAsOptional),
    ("native_enums", .bool s.nativeEnums),
    ("resource_suffix", .text s.resourceSuffix),
    ("collection_suffix", .text s.collectionSuffix),
    ("data_suffix", .text s.dataSuffix),
    ("generic_resource_types", textList s.genericTypes),
    ("emit_response_aliases", .bool s.responseAliases)]
  nodup := by
    simp only [List.map_cons, List.map_nil]
    decide

theorem entries_eq_named (s : Settings) : s.entries = named s.fields.entries := rfl

/-- The settings are read off the entries, each under its name. -/
structure AreRead (place : List Step) (es : List (Value × Value)) (s : Settings) : Prop where
  /-- The directory of sources. -/
  sourceDir : checkField place es "source_dir" checkText? standard.sourceDir = .ok s.sourceDir
  /-- Patterns of the files to read. -/
  takeIn : checkField place es "include" checkTexts standard.takeIn = .ok s.takeIn
  /-- Patterns of the files to leave out. -/
  leaveOut : checkField place es "exclude" checkTexts standard.leaveOut = .ok s.leaveOut
  /-- Where a manifest is. -/
  manifest : checkField place es "manifest" checkText? standard.manifest = .ok s.manifest
  /-- The file to write. -/
  output : checkField place es "output" checkText standard.output = .ok s.output
  /-- What becomes of null. -/
  nullAsOptional : checkField place es "null_as_optional" checkTruth standard.nullAsOptional =
    .ok s.nullAsOptional
  /-- What becomes of enums. -/
  nativeEnums : checkField place es "native_enums" checkTruth standard.nativeEnums =
    .ok s.nativeEnums
  /-- The end of a resource's name. -/
  resourceSuffix : checkField place es "resource_suffix" checkText standard.resourceSuffix =
    .ok s.resourceSuffix
  /-- The end of a collection's name. -/
  collectionSuffix : checkField place es "collection_suffix" checkText standard.collectionSuffix =
    .ok s.collectionSuffix
  /-- The end of a data object's name. -/
  dataSuffix : checkField place es "data_suffix" checkText standard.dataSuffix = .ok s.dataSuffix
  /-- Resources of which the item type is not known. -/
  genericTypes : checkField place es "generic_resource_types" checkTexts standard.genericTypes =
    .ok s.genericTypes
  /-- What becomes of responses. -/
  responseAliases :
    checkField place es "emit_response_aliases" checkTruth standard.responseAliases =
      .ok s.responseAliases

/-- **Entries that pass the check hold a value for each setting**, or leave it as usual. -/
theorem checkEntries_eq_ok_iff : checkEntries place es = .ok s ↔ AreRead place es s := by
  constructor
  · intro h
    simp only [checkEntries, Checked.also_eq_ok_iff] at h
    obtain ⟨_, _, ⟨_, _, ⟨_, _, ⟨_, _, ⟨_, _, ⟨_, _, ⟨_, _, ⟨_, _, ⟨_, _, ⟨_, _, ⟨_, _, ⟨_, _,
      hmake, h1, rfl⟩, h2, rfl⟩, h3, rfl⟩, h4, rfl⟩, h5, rfl⟩, h6, rfl⟩, h7, rfl⟩, h8, rfl⟩,
      h9, rfl⟩, h10, rfl⟩, h11, rfl⟩, h12, rfl⟩ := h
    cases hmake
    exact ⟨h1, h2, h3, h4, h5, h6, h7, h8, h9, h10, h11, h12⟩
  · intro h
    rw [checkEntries]
    simp only [h.sourceDir, h.takeIn, h.leaveOut, h.manifest, h.output, h.nullAsOptional,
      h.nativeEnums, h.resourceSuffix, h.collectionSuffix, h.dataSuffix, h.genericTypes,
      h.responseAliases]
    rfl

end Settings

/-! ## What is read under a name -/

theorem some_eq_of_checkField (f : α → Value) {check : List Step → Value → Checked α}
    {default a a' : α} (hkey : Value.get? key es = Value.get? key es')
    (h : checkField place es key check default = .ok a)
    (h' : checkField place es' key check default = .ok a') : some (f a) = some (f a') := by
  rw [checkField_congr hkey, h'] at h
  rw [Except.ok.inj h]

/-- What is checked and kept as it is stands under the key, or nothing does. -/
theorem some_eq_or_of_checkField {check : List Step → Value → Checked α} {default a : α}
    {f : α → Value} (hcheck : ∀ {place v a}, check place v = .ok a → v = f a)
    (h : checkField place es key check default = .ok a) :
    some (f a) = (Value.get? key es).or (some (f default)) := by
  rw [checkField] at h
  split at h
  · next v hv => rw [hv, Option.some_or, hcheck h]
  · next hv =>
    cases h
    rw [hv, Option.none_or]

namespace Settings

/-- The names of the settings that every layer can set. -/
def layered : List String := ["source_dir", "output", "manifest"]

/-- **A setting depends on what stands under its name** and on nothing else. -/
theorem AreRead.get?_fields_congr (h : AreRead place es s) (h' : AreRead place es' s')
    (hkey : Value.get? key es = Value.get? key es') : s.fields.get? key = s'.fields.get? key := by
  -- A name is one of the settings, each read by its own check, or it is none.
  by_cases hname : key ∈ standard.fields.keys
  · simp only [OrderedMap.keys, fields, List.map_cons, List.map_nil, List.mem_cons,
      List.not_mem_nil, or_false] at hname
    rcases hname with rfl | rfl | rfl | rfl | rfl | rfl | rfl | rfl | rfl | rfl | rfl | rfl
    · exact some_eq_of_checkField textOrNull hkey h.sourceDir h'.sourceDir
    · exact some_eq_of_checkField textList hkey h.takeIn h'.takeIn
    · exact some_eq_of_checkField textList hkey h.leaveOut h'.leaveOut
    · exact some_eq_of_checkField textOrNull hkey h.manifest h'.manifest
    · exact some_eq_of_checkField .text hkey h.output h'.output
    · exact some_eq_of_checkField .bool hkey h.nullAsOptional h'.nullAsOptional
    · exact some_eq_of_checkField .bool hkey h.nativeEnums h'.nativeEnums
    · exact some_eq_of_checkField .text hkey h.resourceSuffix h'.resourceSuffix
    · exact some_eq_of_checkField .text hkey h.collectionSuffix h'.collectionSuffix
    · exact some_eq_of_checkField .text hkey h.dataSuffix h'.dataSuffix
    · exact some_eq_of_checkField textList hkey h.genericTypes h'.genericTypes
    · exact some_eq_of_checkField .bool hkey h.responseAliases h'.responseAliases
  · have hnone (s : Settings) : s.fields.get? key = none :=
      OrderedMap.get?_eq_none (m := s.fields) hname
    rw [hnone s, hnone s']

/-- **A setting that every layer can set** is what stands under its name, or the usual one. -/
theorem AreRead.get?_fields (h : AreRead place es s) (hkey : key ∈ layered) :
    s.fields.get? key = (Value.get? key es).or (standard.fields.get? key) := by
  simp only [layered, List.mem_cons, List.not_mem_nil, or_false] at hkey
  rcases hkey with rfl | rfl | rfl
  · exact some_eq_or_of_checkField checkText?_eq_ok h.sourceDir
  · exact some_eq_or_of_checkField checkText_eq_ok h.output
  · exact some_eq_or_of_checkField checkText?_eq_ok h.manifest

end Settings

/-! ## Files of settings -/

/-- The entries of a value that is a map. -/
def mapEntries : Option Value → List (Value × Value)
  | some (.map es) => es
  | _ => []

/-- The entries of the map in a file; where there is no file, there are none. -/
def entriesAt (tree : FileTree) (path : Path) : List (Value × Value) :=
  match textOfFile? tree path with
  | .ok (some (.ok text)) => mapEntries (Json.parse text.toList).toOption
  | _ => []

theorem entriesAt_of_textOfFile? {path : Path} {text : String}
    (h : textOfFile? tree path = .ok (some (.ok text))) :
    entriesAt tree path = mapEntries (Json.parse text.toList).toOption := by
  rw [entriesAt, h]

/-- The file of a project sets what is in its map, and nothing where there is none. -/
theorem exists_entriesAt_of_readProject {project : Option (List (Value × Value))}
    (h : readProject tree = .ok project) :
    ∃ m : OrderedMap Value, project.getD [] = named m.entries ∧
      entriesAt tree (projectPath tree) = named m.entries := by
  rw [readProject] at h
  cases hfile : textOfFile? tree (projectPath tree) with
  | error x => simp [hfile] at h
  | ok found =>
    rcases found with _ | ⟨f | text⟩
    · simp only [hfile] at h
      cases h
      exact ⟨.empty, rfl, by rw [entriesAt, hfile]; rfl⟩
    · simp [hfile] at h
    · simp only [hfile] at h
      obtain ⟨es, hes, rfl⟩ := exists_of_map_eq_ok (mapError_eq_ok_iff.mp h)
      rw [projectEntries] at hes
      rw [entriesAt_of_textOfFile? hfile]
      split at hes
      · cases hes
      · next es hparse =>
        cases hes
        obtain ⟨m, rfl⟩ := Json.exists_named_of_parse hparse
        exact ⟨m, rfl, by rw [hparse]; rfl⟩
      · cases hes

namespace UserSettings

/-- The entries that a user's own settings are read off. -/
def entriesAtHome (e : Environment) (tree : FileTree) : List (Value × Value) :=
  mapEntries (Value.get? "generator" (entriesAt tree (file e)))

theorem areRead_standard (place : List Step) : Settings.AreRead place [] .standard :=
  ⟨rfl, rfl, rfl, rfl, rfl, rfl, rfl, rfl, rfl, rfl, rfl, rfl⟩

theorem areRead_of_check {v : Value} (h : check v = .ok user) :
    ∃ es, v = .map es ∧ Settings.AreRead [.key "generator"]
      (mapEntries (Value.get? "generator" es)) user.settings := by
  cases v with
  | map es =>
    rw [check] at h
    simp only [Checked.also_eq_ok_iff] at h
    obtain ⟨_, settings, ⟨_, format, hmake, -, rfl⟩, hsettings, rfl⟩ := h
    cases hmake
    refine ⟨es, rfl, ?_⟩
    rw [checkField] at hsettings
    split at hsettings
    · next w hw =>
      rw [hw]
      cases w with
      | map gs => exact Settings.checkEntries_eq_ok_iff.mp hsettings
      | _ => cases hsettings
    · next hnone =>
      cases hsettings
      rw [hnone]
      exact areRead_standard _
  | _ => cases h

/-- **What a user has set is read off the user's file**, as if all else were usual. -/
theorem areRead_of_read (h : read e tree = .ok user) :
    Settings.AreRead [.key "generator"] (entriesAtHome e tree) user.settings := by
  rw [read] at h
  cases hfile : textOfFile? tree (file e) with
  | error x => simp [hfile] at h
  | ok found =>
    rcases found with _ | ⟨f | text⟩
    · simp only [hfile] at h
      cases h
      have hnone : entriesAtHome e tree = [] := by
        rw [entriesAtHome, entriesAt, hfile]
        rfl
      rw [hnone]
      exact areRead_standard _
    · simp [hfile] at h
    · simp only [hfile] at h
      have htext := mapError_eq_ok_iff.mp h
      rw [ofText] at htext
      split at htext
      · cases htext
      · next v hparse =>
        obtain ⟨es, rfl, hread⟩ := areRead_of_check (mapError_eq_ok_iff.mp htext)
        rw [entriesAtHome, entriesAt_of_textOfFile? hfile, hparse]
        exact hread

end UserSettings

/-! ## Entries over one another -/

theorem overlay_named (m n : OrderedMap Value) :
    overlay (named m.entries) (named n.entries) = named (m.merge n).entries :=
  Value.foldl_put_named m n.entries

end PayloadTypes
