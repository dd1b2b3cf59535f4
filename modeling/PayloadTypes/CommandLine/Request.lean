import PayloadTypes.CommandLine.Option
import PayloadTypes.Project.Basic
import PayloadTypes.Settings.Basic
/-!
# What a command line asks for

A command line has options for the whole run, then a command with options
of its own. It asks for the version, for help, or for a run; or it asks for
nothing that can be done.
-/

namespace PayloadTypes.CommandLine

/-- What the settings of a new project are made of. -/
structure InitOptions where
  /-- The directory of sources. -/
  sourceDir : String
  /-- The file to write. -/
  output : String
  /-- Where a manifest is. -/
  manifest : Option String
  /-- Enums are written as enums. -/
  nativeEnums : Bool
  /-- A declared type that allows null makes its field optional. -/
  nullAsOptional : Bool
  /-- A file that is there is written over. -/
  force : Bool
deriving DecidableEq, Repr

/-- What a generation is to read and to do. -/
structure GenerateOptions where
  /-- The directory of sources. -/
  sourceDir : Option String
  /-- The file to write. -/
  output : Option String
  /-- Where a manifest is. -/
  manifest : Option String
  /-- The file is compared and not written. -/
  check : Bool
  /-- The declarations are printed and not written. -/
  toOutput : Bool
deriving DecidableEq, Repr

/-- A command. -/
inductive Command where
  /-- Write the settings of a new project. -/
  | init (options : InitOptions)
  /-- Generate declarations. -/
  | generate (options : GenerateOptions)
  /-- Show the fields of a declaration of a kind. -/
  | showFields (kind : DeclKind) (name : String) (sourceDir manifest : Option String)
  /-- Show the named types that are referred to. -/
  | showSymbols (sourceDir manifest : Option String)
deriving DecidableEq, Repr

/-- Options for a whole run. -/
structure RunOptions where
  /-- Data is printed as JSON. -/
  json : Bool
  /-- Messages are not marked up. -/
  noColor : Bool
  /-- What went well is not told. -/
  quiet : Bool
  /-- How it went is told. -/
  verbose : Bool
deriving DecidableEq, Repr

/-- What a command line asks for. -/
inductive Request where
  /-- The version. -/
  | version
  /-- Help. -/
  | help
  /-- Nothing. -/
  | nothing
  /-- What cannot be done. -/
  | misuse
  /-- A command. -/
  | run (options : RunOptions) (command : Command)
deriving DecidableEq, Repr

/-! ## Options -/

/-- An option without a value. -/
def switch (name : String) (short : Option Char) : OptionSpec := ⟨name, short, false⟩

/-- An option with a value. -/
def setting (name : String) (short : Char) : OptionSpec := ⟨name, some short, true⟩

/-- The option that asks for help. -/
def helpOption : OptionSpec := switch "help" none

/-- The options in front of the command. -/
def runSpecs : List OptionSpec := [
  switch "version" none, switch "json" none, switch "plain" none, switch "no-color" none,
  switch "quiet" (some 'q'), switch "verbose" (some 'v'), helpOption]

/-- The option that names the directory of sources. -/
def sourceDirOption : OptionSpec := setting "source-dir" 's'

/-- The option that names the file to write. -/
def outputOption : OptionSpec := setting "output" 'o'

/-- The option that names a manifest. -/
def manifestOption : OptionSpec := setting "manifest" 'm'

/-- The options of the first command of a project. -/
def initSpecs : List OptionSpec := [
  sourceDirOption, outputOption, manifestOption, switch "native-enums" none,
  switch "null-as-optional" none, switch "force" (some 'f'), helpOption]

/-- The options of a generation. -/
def generateSpecs : List OptionSpec := [
  sourceDirOption, outputOption, manifestOption, switch "check" none, switch "stdout" none,
  helpOption]

/-- The options of commands that show something. -/
def showSpecs : List OptionSpec := [sourceDirOption, manifestOption, helpOption]

/-! ## Reading -/

/-- The command with its options among its operands, of which `make` accepts some. -/
def readCommand (run : RunOptions) (specs : List OptionSpec) (make : Reading → Option Command)
    (arguments : List String) : Request :=
  match readOptions specs true arguments with
  | none => .misuse
  | some r =>
    if r.has "help" then .help
    else
      match make r with
      | some c => .run run c
      | none => .misuse

/-- The command without operands. -/
def bare (c : Command) (r : Reading) : Option Command := if r.rest.isEmpty then some c else none

/-- The first command of a project. -/
def readInit (r : Reading) : Option Command :=
  bare (.init {
    sourceDir := (r.value? "source-dir").getD "app"
    output := (r.value? "output").getD Settings.standard.output
    manifest := r.value? "manifest"
    nativeEnums := r.has "native-enums"
    nullAsOptional := r.has "null-as-optional"
    force := r.has "force" }) r

/-- A generation. -/
def readGenerate (r : Reading) : Option Command :=
  bare (.generate {
    sourceDir := r.value? "source-dir"
    output := r.value? "output"
    manifest := r.value? "manifest"
    check := r.has "check"
    toOutput := r.has "stdout" }) r

/-- A command that shows the fields of a declaration. -/
def readShowFields (kind : DeclKind) (r : Reading) : Option Command :=
  match r.rest with
  | [name] => some (.showFields kind name (r.value? "source-dir") (r.value? "manifest"))
  | _ => none

/-- A command that shows named types. -/
def readShowSymbols (r : Reading) : Option Command :=
  bare (.showSymbols (r.value? "source-dir") (r.value? "manifest")) r

/-- What a group of commands asks for when its arguments start with no command of it. An argument
that looks like an option is one, although it stands where the command should. -/
def readMissing (specs : List OptionSpec) (arguments : List String) : Request :=
  match readOptions specs false arguments with
  | none => .misuse
  | some r =>
    match r.first? ["help", "version"] with
    | some "help" => .help
    | some _ => .version
    | none => .misuse

/-- A command that shows something. -/
def readShow (run : RunOptions) (arguments : List String) : Request :=
  if arguments.isEmpty then .nothing
  else
    match readOptions [helpOption] false arguments with
    | none => .misuse
    | some r =>
      if r.has "help" then .help
      else
        match r.rest with
        | "request" :: more => readCommand run showSpecs (readShowFields .request) more
        | "resource" :: more => readCommand run showSpecs (readShowFields .resource) more
        | "symbols" :: more => readCommand run showSpecs readShowSymbols more
        | rest => readMissing [helpOption] rest

/-- What a command line asks for. -/
def Request.read (arguments : List String) : Request :=
  if arguments.isEmpty then .nothing
  else
    match readOptions runSpecs false arguments with
    | none => .misuse
    | some r =>
      -- of the two options the one that stands first counts
      match r.first? ["help", "version"] with
      | some "help" => .help
      | some _ => .version
      | none =>
        let run : RunOptions :=
          ⟨r.has "json", r.has "no-color", r.has "quiet", r.has "verbose"⟩
        match r.rest with
        | "init" :: more => readCommand run initSpecs readInit more
        | "generate" :: more => readCommand run generateSpecs readGenerate more
        | "inspect" :: more => readShow run more
        | rest => readMissing runSpecs rest

end PayloadTypes.CommandLine
