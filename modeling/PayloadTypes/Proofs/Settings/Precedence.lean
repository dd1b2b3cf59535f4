import PayloadTypes.Proofs.Settings.Reading
/-!
# Layers that stand over one another

Each layer sets what it sets by the name of a setting, and the entries that are
checked hold what the highest layer has under a name (`exists_merged`). What is read
under one name does not depend on what stands under another. So a setting that all
layers can set is that of the highest one that does, and a change in one layer under
one name is seen under that name alone (`layering`).
-/

namespace PayloadTypes

open Files (FileTree)
open Value (named)

variable {α β : Type} {key : String} {s s' : Settings} {e : Environment} {tree : FileTree}
  {cli : Overrides} {user : UserSettings}

/-! ## What layers set -/

/-- A layer over the usual settings. -/
inductive Layer where
  /-- The command line. -/
  | commandLine
  /-- The environment. -/
  | environment
  /-- The file of the project. -/
  | project
  /-- The file of the user. -/
  | user

/-- The layers, the highest first. -/
def Layer.all : List Layer := [.commandLine, .environment, .project, .user]

/-- The variables of the environment that set something, under the names of what they set. -/
def settingVariables : List (String × String) :=
  [("source_dir", "RULETYPE_SOURCE_DIR"), ("output", "RULETYPE_OUTPUT"),
    ("manifest", "RULETYPE_MANIFEST")]

/-- What overrides set under a name. -/
def Overrides.get? (o : Overrides) (key : String) : Option String :=
  ([("source_dir", o.sourceDir), ("output", o.output), ("manifest", o.manifest)].lookup key).join

/-- What a layer sets under the name of a setting. -/
def setBy (e : Environment) (tree : FileTree) (cli : Overrides) : Layer → String → Option Value
  | .commandLine, key => (cli.get? key).map .text
  | .environment, key => ((settingVariables.lookup key).bind fun name =>
      (e.vars.get? name).filter (· ≠ "")).map .text
  | .project, key => Value.get? key (entriesAt tree (projectPath tree))
  | .user, key => Value.get? key (UserSettings.entriesAtHome e tree)

/-! ### Overrides -/

theorem lookup_filterMap {l : List (String × Option α)} (h : (l.map Prod.fst).Nodup) (x : String) :
    (l.filterMap fun p => p.2.map fun v => (p.1, v)).lookup x = (l.lookup x).join := by
  induction l with
  | nil => rfl
  | cons p l ih =>
    rw [List.map_cons, List.nodup_cons] at h
    rw [lookup_cons]
    cases hp : p.2 with
    | some v =>
      rw [List.filterMap_cons_some (b := (p.1, v)) (by rw [hp]; rfl), lookup_cons, ih h.2]
      split <;> rfl
    | none =>
      rw [List.filterMap_cons_none (by rw [hp]; rfl), ih h.2]
      split
      · next hx =>
        -- the name is not listed again
        have hnone : l.lookup x = none :=
          List.lookup_eq_none_iff.mpr fun q hq => bne_iff_ne.mpr fun heq =>
            h.1 (hx ▸ heq ▸ List.mem_map_of_mem hq)
        rw [hnone]
        rfl
      · rfl

namespace Overrides

variable {o : Overrides}

/-- What overrides set, under the names. -/
def texts (o : Overrides) : OrderedMap String where
  entries := o.entries
  nodup := by
    obtain ⟨_ | _, _ | _, _ | _, _⟩ := o <;> simp [entries]

theorem get?_texts (o : Overrides) (key : String) : o.texts.get? key = o.get? key := by
  have hnames : ["source_dir", "output", "manifest"].Nodup := by decide
  exact lookup_filterMap
    (l := [("source_dir", o.sourceDir), ("output", o.output), ("manifest", o.manifest)]) hnames key

/-- What overrides set, as values. -/
def values (o : Overrides) : OrderedMap Value := o.texts.mapValues fun _ v => .text v

theorem get?_values (o : Overrides) (key : String) :
    o.values.get? key = (o.get? key).map .text := by
  rw [values, OrderedMap.get?_mapValues, get?_texts]

theorem overlayTexts_eq (es : List (Value × Value)) (o : Overrides) :
    overlayTexts es o = overlay es (named o.values.entries) := by
  rw [overlayTexts, named, values, OrderedMap.mapValues, List.map_map]
  rfl

end Overrides

theorem Environment.get?_eq_filter (e : Environment) (name : String) :
    e.get? name = (e.vars.get? name).filter (· ≠ "") := by
  rw [Environment.get?]
  split
  · next h =>
    rw [h]
    rfl
  · next h =>
    cases hv : e.vars.get? name with
    | none => rfl
    | some v =>
      have hne : v ≠ "" := by
        rintro rfl
        exact h hv
      rw [Option.filter, if_pos (decide_eq_true hne)]

theorem Environment.get?_overrides (e : Environment) (key : String) :
    e.overrides.get? key = (settingVariables.lookup key).bind fun name =>
      (e.vars.get? name).filter (· ≠ "") := by
  simp only [← Environment.get?_eq_filter]
  rw [Overrides.get?, settingVariables]
  simp only [lookup_cons, List.lookup_nil]
  split_ifs <;> rfl

/-! ## Layers over one another -/

/-- **What is under a name when all layers are put over one another** is what the highest of them
sets under it. -/
theorem exists_merged {own : UserSettings} {project : Option (List (Value × Value))}
    (hproject : readProject tree = .ok project)
    (h : settingsOf own project e.overrides cli = .ok s) :
    ∃ es, Settings.AreRead [] es s ∧ ∀ key, Value.get? key es =
      (setBy e tree cli .commandLine key).or ((setBy e tree cli .environment key).or
        ((setBy e tree cli .project key).or (own.settings.fields.get? key))) := by
  obtain ⟨m, hentries, hfile⟩ := exists_entriesAt_of_readProject hproject
  rw [settingsOf, hentries, Overrides.overlayTexts_eq, Overrides.overlayTexts_eq,
    Settings.entries_eq_named, overlay_named, overlay_named, overlay_named] at h
  refine ⟨_, Settings.checkEntries_eq_ok_iff.mp (mapError_eq_ok_iff.mp h), fun key => ?_⟩
  rw [Value.get?_named, ← OrderedMap.get?, OrderedMap.get?_merge, OrderedMap.get?_merge,
    OrderedMap.get?_merge, Overrides.get?_values, Overrides.get?_values,
    Environment.get?_overrides]
  simp only [setBy, hfile, Value.get?_named]
  rfl

theorem exists_of_resolveSettings (h : resolveSettings e tree cli = .ok (user, s)) :
    ∃ own project, UserSettings.read e tree = .ok own ∧ readProject tree = .ok project ∧
      settingsOf own project e.overrides cli = .ok s ∧
      user = { own with format := cli.format.getD own.format } := by
  rw [resolveSettings] at h
  obtain ⟨own, hown, h⟩ := bind_eq_ok_iff.mp h
  obtain ⟨project, hproject, h⟩ := bind_eq_ok_iff.mp h
  obtain ⟨settings, hsettings, h⟩ := bind_eq_ok_iff.mp h
  cases h
  exact ⟨own, project, hown, hproject, mapError_eq_ok_iff.mp hsettings, rfl⟩

/-- The settings of two runs agree under a name under which their layers do. -/
theorem get?_fields_eq_of_setBy {e' : Environment} {tree' : FileTree} {cli' : Overrides}
    {user' : UserSettings} (h : resolveSettings e tree cli = .ok (user, s))
    (h' : resolveSettings e' tree' cli' = .ok (user', s'))
    (hkey : ∀ l, setBy e tree cli l key = setBy e' tree' cli' l key) :
    s.fields.get? key = s'.fields.get? key := by
  obtain ⟨own, project, hown, hproject, hsettings, -⟩ := exists_of_resolveSettings h
  obtain ⟨own', project', hown', hproject', hsettings', -⟩ := exists_of_resolveSettings h'
  obtain ⟨es, hread, hget⟩ := exists_merged hproject hsettings
  obtain ⟨es', hread', hget'⟩ := exists_merged hproject' hsettings'
  have huser : own.settings.fields.get? key = own'.settings.fields.get? key :=
    (UserSettings.areRead_of_read hown).get?_fields_congr (UserSettings.areRead_of_read hown')
      (hkey .user)
  refine hread.get?_fields_congr hread' ?_
  rw [hget, hget', hkey, hkey, hkey, huser]

/-- **The highest layer that sets a setting decides**, if every layer can set it. -/
theorem get?_fields_eq_findSome? (h : resolveSettings e tree cli = .ok (user, s))
    (hkey : key ∈ Settings.layered) : s.fields.get? key =
      (Layer.all.findSome? fun l => setBy e tree cli l key).or
        (Settings.standard.fields.get? key) := by
  obtain ⟨own, project, hown, hproject, hsettings, -⟩ := exists_of_resolveSettings h
  obtain ⟨es, hread, hget⟩ := exists_merged hproject hsettings
  have huser : own.settings.fields.get? key = (setBy e tree cli .user key).or
      (Settings.standard.fields.get? key) := (UserSettings.areRead_of_read hown).get?_fields hkey
  have hall : (Layer.all.findSome? fun l => setBy e tree cli l key) =
      (setBy e tree cli .commandLine key).or ((setBy e tree cli .environment key).or
        ((setBy e tree cli .project key).or (setBy e tree cli .user key))) := by
    simp only [Layer.all, findSome?_cons_eq_or, List.findSome?_nil, Option.or_none]
  rw [hread.get?_fields hkey, hget, huser, hall]
  simp only [Option.or_assoc, Option.or_self]

/-- How the settings in force come of the layers. -/
structure Layering (e : Environment) (tree : FileTree) (cli : Overrides) (user : UserSettings)
    (s : Settings) : Prop where
  /-- A setting that every layer can set is that of the highest layer that does, or the usual
  one. -/
  highest : ∀ key ∈ Settings.layered, s.fields.get? key =
    (Layer.all.findSome? fun l => setBy e tree cli l key).or (Settings.standard.fields.get? key)
  /-- Any other setting is the same wherever the files of the project and the user say the same
  of it. -/
  others : ∀ e' tree' cli' user' s', resolveSettings e' tree' cli' = .ok (user', s') →
    ∀ key ∉ Settings.layered,
      setBy e tree cli .project key = setBy e' tree' cli' .project key →
      setBy e tree cli .user key = setBy e' tree' cli' .user key →
        s.fields.get? key = s'.fields.get? key
  /-- What layers say under other names does not matter to a setting. -/
  apart : ∀ e' tree' cli' user' s', resolveSettings e' tree' cli' = .ok (user', s') →
    ∀ key, (∀ l, setBy e tree cli l key = setBy e' tree' cli' l key) →
      s.fields.get? key = s'.fields.get? key
  /-- So where one layer sets something else under one name, all other settings stay the same. -/
  frame : ∀ e' tree' cli' user' s', resolveSettings e' tree' cli' = .ok (user', s') →
    ∀ layer key, (∀ l k, (l, k) ≠ (layer, key) → setBy e tree cli l k = setBy e' tree' cli' l k) →
      ∀ k ≠ key, s.fields.get? k = s'.fields.get? k
  /-- The user's own settings are told as they are, with the format of the command line. -/
  own : ∃ own, UserSettings.read e tree = .ok own ∧
    user = { own with format := cli.format.getD own.format }

theorem setBy_eq_none (e : Environment) (tree : FileTree) (cli : Overrides)
    (hkey : key ∉ Settings.layered) :
    setBy e tree cli .commandLine key = none ∧ setBy e tree cli .environment key = none := by
  simp only [Settings.layered, List.mem_cons, List.not_mem_nil, or_false, not_or] at hkey
  obtain ⟨hsource, houtput, hmanifest⟩ := hkey
  simp [setBy, Overrides.get?, settingVariables, lookup_cons, hsource, houtput, hmanifest]

/-- **Layers stand over one another setting by setting**: none is touched by what a layer says
under another name. -/
theorem layering (h : resolveSettings e tree cli = .ok (user, s)) :
    Layering e tree cli user s where
  highest key hkey := get?_fields_eq_findSome? h hkey
  others e' tree' cli' user' s' h' key hkey hproject huser := by
    obtain ⟨hcli, henv⟩ := setBy_eq_none e tree cli hkey
    obtain ⟨hcli', henv'⟩ := setBy_eq_none e' tree' cli' hkey
    refine get?_fields_eq_of_setBy h h' fun l => ?_
    cases l with
    | commandLine => rw [hcli, hcli']
    | environment => rw [henv, henv']
    | project => exact hproject
    | user => exact huser
  apart e' tree' cli' user' s' h' key hkey := get?_fields_eq_of_setBy h h' hkey
  frame e' tree' cli' user' s' h' layer key hsame k hk := by
    refine get?_fields_eq_of_setBy h h' fun l => hsame l k fun heq => hk ?_
    exact (Prod.mk.inj heq).2
  own := by
    obtain ⟨own, -, hown, -, -, huser⟩ := exists_of_resolveSettings h
    exact ⟨own, hown, huser⟩

/-- Where a variable of a setting is empty and another one is not. -/
def partlySetEnvironment : Environment where
  vars := .ofList [("HOME", "/home"), ("RULETYPE_OUTPUT", ""), ("RULETYPE_MANIFEST", "env.yaml")]
  baseDirs := true

/-- A tree with a file of the user, of which the file of the project takes something back. -/
def twoFilesTree : FileTree where
  root := .dir [
    ("work", .dir [(projectFile, .file
      "\x7b\"source_dir\": null, \"native_enums\": \"yes\"\x7d".toUTF8)]),
    ("home", .dir [(".config", .dir [("ruletype", .dir [("config.json", .file
      ("\x7b\"generator\": \x7b\"source_dir\": \"app\", " ++
        "\"output\": \"a.d.ts\"\x7d\x7d").toUTF8)])])])]
  here := ["work"]

/-- The user's own settings there, with the format of the command line. -/
def twoFilesUser : UserSettings where
  format := "json"
  settings := { Settings.standard with sourceDir := some "app", output := "a.d.ts" }

/-- The settings in force there: the project takes back the directory of sources, and the empty
variable sets nothing. -/
def twoFilesSettings : Settings :=
  { Settings.standard with manifest := some "env.yaml", output := "a.d.ts", nativeEnums := true }

theorem layering_twoFiles :
    resolveSettings partlySetEnvironment twoFilesTree ⟨none, none, none, some "json"⟩ =
        .ok (twoFilesUser, twoFilesSettings) ∧
      Layering partlySetEnvironment twoFilesTree ⟨none, none, none, some "json"⟩ twoFilesUser
        twoFilesSettings := by
  have hresolve : resolveSettings partlySetEnvironment twoFilesTree
      ⟨none, none, none, some "json"⟩ = .ok (twoFilesUser, twoFilesSettings) := rfl
  exact ⟨hresolve, layering hresolve⟩

end PayloadTypes
