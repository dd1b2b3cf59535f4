import PayloadTypes.CommandLine.Reach
import Std.Time.Format
/-!
# The program

The program takes what its session reads into a tree of files, runs the
session there, and writes back what is another one then. It asks no server.
-/

namespace PayloadTypes.CommandLine

open Files (FileTree Node Path)

/-! ## Reading -/

/-- What stands at a path; directories that sources are never looked for in stay empty, and so do
those that a link leads to. -/
partial def readNode (path : String) : IO Node := do
  let real ← IO.FS.realPath path
  if !(← real.isDir) then return .file (← IO.FS.readBinFile real)
  let mut entries := []
  for entry in ← real.readDir do
    let name := entry.fileName
    let below := path ++ "/" ++ name
    -- what a link leads to has another real path than its place here
    let isLink := (← IO.FS.realPath below).toString != real.toString ++ "/" ++ name
    let isClosed := Files.closedDirs.contains name || isLink
    if isClosed && (← (← IO.FS.realPath below).isDir) then entries := (name, .dir []) :: entries
    else
      let node ← readNode below
      entries := (name, node) :: entries
  return .dir entries

/-- What stands at a path, if anything does. -/
def readNode? (path : String) : IO (Option Node) :=
  try return some (← readNode path) catch _ => return none

/-- The path leads to a directory. -/
def isDirectory (path : String) : IO Bool :=
  try (← IO.FS.realPath path).isDir catch _ => return false

/-- The tree with what stands at a path and on the way there. -/
def load (tree : FileTree) (path : Path) : IO FileTree := do
  let mut tree := tree
  for step in path.prefixes do
    if step != path then
      if ← isDirectory step.text then tree := ((Files.makeDirs step).apply tree).2
  match ← readNode? path.text with
  | some n => return (tree.set path n).toOption.getD tree
  | none => return tree

/-- The variables that count. -/
def readVariables : IO (OrderedMap String) := do
  let mut m := OrderedMap.empty
  for name in ["HOME", "XDG_CONFIG_HOME", "XDG_DATA_HOME", "NO_COLOR", "TERM",
      "RULETYPE_SOURCE_DIR", "RULETYPE_OUTPUT", "RULETYPE_MANIFEST"] do
    if let some v ← IO.getEnv name then m := m.insert name v
  return m

/-- The text on the standard input, if a command reads it. -/
def readInput (e : Environment) (tree : FileTree) (c : Command) : IO String := do
  match resolveSettings e tree c.overrides with
  | .ok (_, s) =>
    if s.manifest == some "-" then
      let stream ← IO.getStdin
      let mut bytes := ByteArray.empty
      let mut more := true
      while more do
        let part ← stream.read 65536
        bytes := bytes ++ part
        more := !part.isEmpty
      return String.ofList (Files.unifyLineEnds (Files.decodeLossy bytes))
    else return ""
  | .error _ => return ""

/-! ## Writing -/

/-- The directories and files of a tree, with the names that lead to them. -/
partial def listing (names : List String) : Node → List (List String × Option ByteArray)
  | .file bytes => [(names, some bytes)]
  | .dir entries => (names, none) :: entries.flatMap fun e => listing (names ++ [e.1]) e.2

/-- What is another one in `new` is written. A file takes the place of another one at once. -/
def writeChanges (old new : FileTree) : IO Unit := do
  for (names, content) in listing [] new.root do
    let path := (⟨.root, names⟩ : Path).text
    match content, Node.find names old.root with
    | none, .ok _ => pure ()
    | none, .error _ => IO.FS.createDirAll path
    | some bytes, before =>
      let same :=
        match before with
        | .ok (.file held) => held.toList == bytes.toList
        | _ => false
      if !same then
        -- a reader meets the old file or the new one, never a part
        let draft := path ++ ".tmp"
        IO.FS.writeBinFile draft bytes
        IO.FS.rename draft path

/-! ## Running -/

/-- A command is run; the result is its exit code. -/
def perform (o : RunOptions) (c : Command) : IO UInt32 := do
  let here := Path.ofText (← IO.currentDir).toString
  let e : Environment := ⟨← readVariables, (← IO.getEnv "OS") != some "Windows_NT"⟩
  let start : FileTree := ⟨.dir [], here.segments⟩
  let bare := ((Files.makeDirs here).apply start).2
  let known ← (settingsFiles e bare).foldlM load bare
  let named ← ((c.paths e known) ++ settingsFiles e bare).foldlM load known
  let now ← Std.Time.PlainDateTime.now
  let x : Context := {
    environment := e
    console := consoleOf o e
    standardInput := ← readInput e named c
    fetch := fun _ => .refused "there is no connection"
    time := now.format "uuuuMMdd-HHmmss" }
  let tree ← (c.resourcePaths x named).foldlM load named
  match c.outcome x tree with
  | .ok (code, s) =>
    writeChanges tree s.tree
    IO.print s.printed
    IO.eprint s.told
    return UInt32.ofNat code
  | .error f =>
    IO.eprintln f.message
    return 1

end PayloadTypes.CommandLine

open PayloadTypes.CommandLine in
/-- The program. -/
def main (arguments : List String) : IO UInt32 := do
  match Request.read arguments with
  | .version => do
    IO.print versionLine
    return 0
  | .help => do
    IO.print helpText
    return 0
  | .nothing => do
    IO.eprint helpText
    return 2
  | .misuse => do
    IO.eprint helpText
    return 2
  | .run o c => perform o c
