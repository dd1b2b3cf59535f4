import PayloadTypes.CommandLine.Session
/-!
# What a session reads

The paths that a command reads can be told before it runs: the settings
first, then what they name, then the files that a manifest names.
-/

namespace PayloadTypes.CommandLine

open Files (FileTree Path)

/-- The files of settings. -/
def settingsFiles (e : Environment) (tree : FileTree) : List Path :=
  [UserSettings.file e, projectPath tree]

/-- The paths that settings in force name. -/
def namedPaths (e : Environment) (tree : FileTree) (cli : Overrides) : List Path :=
  match resolveSettings e tree cli with
  | .error _ => []
  | .ok (_, s) =>
    (([s.sourceDir, s.manifest].filterMap filled?).filter fun p => !isAddress p).map Path.ofText ++
      [Path.ofText s.output]

/-- What a command sets on the command line. -/
def Command.overrides : Command → Overrides
  | .init _ => .none
  | .generate o => ⟨o.sourceDir, o.output, o.manifest, none⟩
  | .showFields _ _ dir manifest => ⟨dir, none, manifest, none⟩
  | .showSymbols dir manifest => ⟨dir, none, manifest, none⟩

/-- The paths that a command reads, its settings being in the tree. -/
def Command.paths (e : Environment) (tree : FileTree) : Command → List Path
  | .init o => [Path.ofText o.sourceDir]
  | c => namedPaths e tree c.overrides

/-- The entries of the manifest in force, if they can be read. -/
def manifestEntries (x : Context) (tree : FileTree) (source : String) : ManifestEntries :=
  if source = "-" then (manifestOnInput x.standardInput).toOption.getD []
  else if isAddress source then (manifestFetched source (x.fetch source)).toOption.getD []
  else (manifestInFile tree source).result.1.toOption.getD []

/-- The files that the resources of a manifest name. -/
def resourceFiles (es : ManifestEntries) : List String :=
  ((sectionEntries es "resources").toOption.getD []).filterMap fun e =>
    match (declarationEntries e.2).toOption.bind (Value.get? "file") with
    | some (.text file) => some file
    | _ => none

/-- The files that the manifest in force names, the manifest being in the tree. -/
def Command.resourcePaths (x : Context) (tree : FileTree) (c : Command) : List Path :=
  match resolveSettings x.environment tree c.overrides with
  | .error _ => []
  | .ok (_, s) =>
    match filled? s.manifest with
    | none => []
    | some source =>
      -- files are named from the manifest on, or from here where the manifest is no file
      let base := if source = "-" || isAddress source then ⟨.here, []⟩
        else (tree.resolve (Path.ofText source)).parent
      (resourceFiles (manifestEntries x tree source)).map fun f => base.join (Path.ofText f)

end PayloadTypes.CommandLine
