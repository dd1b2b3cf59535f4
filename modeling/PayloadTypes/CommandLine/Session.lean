import PayloadTypes.CommandLine.Request
import PayloadTypes.Console
import PayloadTypes.Generation.Output
import PayloadTypes.Generation.Render
import PayloadTypes.Project.Assembly
import PayloadTypes.Settings.Layers
/-!
# Sessions

A session is one run of a command: from the files, the environment and the
standard input it comes to what is printed, to the files as they are then,
and to an exit code. Whatever nobody foresaw is written to a log.
-/

namespace PayloadTypes.CommandLine

open Files (Change FileError FileTree Path)

/-- What a session is given. -/
structure Context where
  /-- The environment. -/
  environment : Environment
  /-- How it prints. -/
  console : Console
  /-- The text on the standard input. -/
  standardInput : String
  /-- What a server gives for an address. -/
  fetch : String → Fetched
  /-- The time, as logs are named after it. -/
  time : String

/-- What has come of a session so far. -/
structure State where
  /-- The files. -/
  tree : FileTree
  /-- What is on the standard output. -/
  printed : String
  /-- What is on the standard error. -/
  told : String

/-- Why a session ends early. -/
inductive Stop where
  /-- It is done, with an exit code. -/
  | exit (code : Nat)
  /-- Nobody foresaw this. -/
  | fault (f : Fault)

/-- A part of a session. -/
abbrev Session (α : Type) := ExceptT Stop (StateM State) α

namespace Session

variable {α : Type}

/-- The session ends. -/
def exit (code : Nat) : Session α := throw (.exit code)

/-- Something is printed. -/
def print (text : String) : Session Unit :=
  modify fun s => { s with printed := s.printed ++ text }

/-- Something is told. -/
def tell (text : String) : Session Unit := modify fun s => { s with told := s.told ++ text }

/-- Notices are told, those that are no warnings only to those who want them. -/
def tellNotices (c : Console) (ns : List Notice) : Session Unit :=
  (ns.filter fun n => n.isWarning || c.verbose).forM fun n => tell (Console.asLine n.line)

/-- A change to the files, and what comes of it. -/
def attempt (c : Change α) : Session (Except FileError α) := do
  let (r, t) := c.apply (← get).tree
  modify fun s => { s with tree := t }
  return r

/-- What comes of the files. -/
def found (r : Except FileError α) : Session α :=
  match r with
  | .ok a => return a
  | .error e => throw (.fault (.file e))

/-- A change to the files, which has to succeed. -/
def change (c : Change α) : Session α := do found (← attempt c)

/-- A result, a failure being told. -/
def need (c : Console) : Except Error α → Session α
  | .ok a => return a
  | .error (.failure f) => do
    tell (c.error f.message)
    exit f.exitCode
  | .error (.fault f) => throw (.fault f)

end Session

open Session

/-- Settings, the project that they name, and what it comes to. -/
def runGeneration (x : Context) (cli : Overrides) : Session (Settings × Generation) := do
  let c := x.console
  -- the directory of the user is made even where there are no settings in it to read
  change (Files.makeDirs x.environment.settingsDir)
  let tree := (← get).tree
  let (_, settings) ← need c (resolveSettings x.environment tree cli)
  let (project, notices) := (assemble ⟨tree, x.standardInput, x.fetch⟩ settings).result
  tellNotices c notices
  let project ← need c project
  tell (c.debug ("Loaded " ++ Notice.decimal project.size ++ " declarations"))
  let (generation, notices) := (project.generation settings).result
  tellNotices c notices
  return (settings, ← need c generation)

/-- The settings of a new project. -/
def InitOptions.settings (o : InitOptions) : Settings :=
  { Settings.standard with
    sourceDir := some o.sourceDir
    output := o.output
    manifest := o.manifest
    nativeEnums := o.nativeEnums
    nullAsOptional := o.nullAsOptional }

/-- Write the settings of a new project. -/
def runInit (x : Context) (o : InitOptions) : Session Unit := do
  let c := x.console
  let tree := (← get).tree
  let path := projectPath tree
  if (← found (tree.holds path)) && !o.force then
    tell (c.error (projectFile ++ " already exists. Use --force to overwrite it."))
    exit 2
  if !(← found (tree.isDir (Path.ofText o.sourceDir))) then
    tell (c.info ("Source directory '" ++ o.sourceDir ++ "' does not exist yet."))
  change (o.settings.write path)
  tell (c.success ("Wrote " ++ projectFile ++ "."))
  tell (c.suggestion "Generate declarations: ruletype generate")

/-- Compare a file with what would be written. -/
def runCheck (x : Context) (target : Path) (text : String) : Session Unit := do
  let c := x.console
  let tree := (← get).tree
  tellNotices c (comparisonNotices tree target)
  if ← found (upToDate tree target text) then tell (c.success (target.text ++ " is up to date."))
  else
    let f := Failure.outOfDate target.text
    tell (c.error f.message)
    tell (c.suggestion "Regenerate it: ruletype generate")
    exit f.exitCode

/-- What is printed about a file that was written. -/
def writtenReport (target : Path) (changed : Bool) (g : Generation) : Value := .map [
  (.text "output", .text target.text),
  (.text "changed", .bool changed),
  (.text "declarations", .int g.declarations.length),
  (.text "unresolved", .list (g.unresolved.map .text))]

/-- Write a file. -/
def runWrite (x : Context) (target : Path) (text : String) (g : Generation) : Session Unit := do
  let c := x.console
  let tree := (← get).tree
  tellNotices c (writingNotices tree target text)
  match ← attempt (writeOutput target text) with
  | .error .zeroCharacter => throw (.fault (.file .zeroCharacter))
  | .error _ =>
    tell (c.error ("Failed to write " ++ target.text))
    exit 1
  | .ok changed =>
    if c.format = .json then print (c.structured (writtenReport target changed g))
    else if changed then
      tell (c.success ("Wrote " ++ Notice.decimal g.declarations.length ++ " declarations to " ++
        target.text ++ "."))
    else tell (c.info (target.text ++ " is up to date."))

/-- Generate declarations. -/
def runGenerate (x : Context) (o : GenerateOptions) : Session Unit := do
  let c := x.console
  if o.check && o.toOutput then
    tell (c.error "--check and --stdout cannot be combined.")
    exit 2
  let (settings, g) ← runGeneration x ⟨o.sourceDir, o.output, o.manifest, none⟩
  let text ← need c ((g.written settings).mapError fun f => .fault (.unreadable f))
  let target := Path.ofText settings.output
  g.skipped.forM fun name => tell (c.debug ("Skipped " ++ name ++ ": no fields"))
  if !g.unresolved.isEmpty then
    tell (c.warning ("Unresolved type references: " ++ ", ".intercalate g.unresolved))
  if o.toOutput then print text
  else if o.check then runCheck x target text
  else runWrite x target text g

/-- Show the fields of a declaration. -/
def runShowFields (x : Context) (kind : DeclKind) (name : String) (cli : Overrides) :
    Session Unit := do
  let c := x.console
  let (_, g) ← runGeneration x cli
  match g.select? kind name with
  | some d =>
    print (c.table ["Field", "Type", "Optional"] (d.fields.map fun f =>
      [f.name, f.type, if f.optional then "Yes" else ""]))
  | none =>
    tell (c.error ("No " ++ kind.name ++ " named '" ++ name ++ "'."))
    tell (if g.skipped.contains name then
        c.info ("'" ++ name ++ "' was found but produced no fields.")
      else c.suggestion "List what was found: ruletype inspect symbols")
    exit 2

/-- Show the named types that are referred to. -/
def runShowSymbols (x : Context) (cli : Overrides) : Session Unit := do
  let c := x.console
  let (_, g) ← runGeneration x cli
  match g.symbols.shortNames with
  | [] => tell (c.info "No type names referenced.")
  | names =>
    print (c.table ["Symbol", "Declared"] (names.map fun n =>
      [n, if g.names.contains n then "Yes" else "No"]))

/-- Run a command. -/
def Command.run (x : Context) : Command → Session Unit
  | .init o => runInit x o
  | .generate o => runGenerate x o
  | .showFields kind name dir manifest => runShowFields x kind name ⟨dir, none, manifest, none⟩
  | .showSymbols dir manifest => runShowSymbols x ⟨dir, none, manifest, none⟩

/-- The log of a fault. -/
def logPath (x : Context) : Path :=
  (x.environment.dataDir.child "logs").child ("crash-" ++ x.time ++ ".log")

/-- A fault is logged and told. -/
def report (x : Context) (f : Fault) : Session Unit := do
  let path := logPath x
  change (Files.store path (Console.asLine f.message).toUTF8)
  tell (x.console.error ("Unexpected error. Debug log: " ++ path.text))
  exit 1

/-- What a command comes to, and its exit code; it comes to nothing where a fault cannot even be
logged. -/
def Command.outcome (x : Context) (tree : FileTree) (c : Command) : Except Fault (Nat × State) :=
  let ended (r : Except Stop Unit × State) : Except Fault (Nat × State) :=
    match r with
    | (.ok (), s) => .ok (0, s)
    | (.error (.exit code), s) => .ok (code, s)
    | (.error (.fault f), _) => .error f
  match (c.run x).run.run ⟨tree, "", ""⟩ with
  | (.error (.fault f), s) => ended ((report x f).run.run s)
  | r => ended r

/-- How a run prints, by its options and by its environment. -/
def consoleOf (o : RunOptions) (e : Environment) : Console where
  format := if o.json then .json else .plain
  markup := !o.noColor && !e.vars.contains "NO_COLOR" && e.vars.get? "TERM" != some "dumb"
  quiet := o.quiet
  verbose := o.verbose

/-- How the program is used. -/
def helpText : String := "\n".intercalate [
  "Usage: ruletype [OPTIONS] COMMAND [ARGS]...",
  "",
  "Generate TypeScript declarations from Laravel validation rules and API resources.",
  "",
  "Options: --version --json --plain --no-color -q/--quiet -v/--verbose --help",
  "",
  "Commands:",
  "  init      Create ruletype.json in the current directory.",
  "            -s/--source-dir -o/--output -m/--manifest --native-enums --null-as-optional",
  "            -f/--force",
  "  generate  Generate the declaration file.",
  "            -s/--source-dir -o/--output -m/--manifest --check --stdout",
  "  inspect   Show inferred declarations: request NAME, resource NAME, symbols.",
  "            -s/--source-dir -m/--manifest",
  ""]

/-- The line that tells the version. -/
def versionLine : String := Console.asLine "ruletype 0.3.0"

end PayloadTypes.CommandLine
