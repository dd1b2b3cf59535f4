import PayloadTypes.Files.Glob
import PayloadTypes.Files.Tree
/-!
# Finding sources

The sources below a directory are the files of one extension that some
patterns take in, others do not leave out, and the ignore file of the
directory does not name. Some directories are never entered. The result is
sorted by segments, so the order in which directories list their entries
does not show.
-/

namespace PayloadTypes.Files

/-- Directories that are never entered. -/
def closedDirs : List String := [
  ".git", ".idea", ".vscode", "vendor", "node_modules", "storage", "bootstrap"]

/-- The end of a source's name. -/
def sourceEnding : List Char := ".php".toList

/-- What is taken in where nothing is asked for. -/
def standardPatterns : List String := ["**/*.php"]

/-- Which files and directories count. -/
structure Selection where
  /-- What is to be read. -/
  takeIn : List IgnorePattern
  /-- What is to be left out. -/
  leaveOut : List IgnorePattern
  /-- What the ignore file names. -/
  ignored : List IgnorePattern

namespace Selection

/-- The text of segments, as patterns see it. -/
def pathText (segments : List String) : List Char := ("/".intercalate segments).toList

/-- A directory is entered. -/
def enters (s : Selection) (segments : List String) : Bool :=
  !(segments.getLast?.any closedDirs.contains) &&
    !matchesPath s.ignored (pathText segments ++ ['/'])

/-- A file is read. -/
def reads (s : Selection) (segments : List String) : Bool :=
  let path := pathText segments
  (segments.getLast?.any fun name => Text.endsWith sourceEnding name.toList) &&
    !matchesPath s.ignored path && matchesPath s.takeIn path && !matchesPath s.leaveOut path

mutual
/-- The files that are read in what stands at the end of some segments. -/
def below (s : Selection) (segments : List String) : Node → List (List String)
  | .file _ => if s.reads segments then [segments] else []
  | .dir entries => if s.enters segments then s.belowEntries segments entries else []
/-- The files that are read in the entries of a directory. -/
def belowEntries (s : Selection) (segments : List String) :
    List (String × Node) → List (List String)
  | [] => []
  | (name, n) :: es => s.below (segments ++ [name]) n ++ s.belowEntries segments es
end

end Selection

/-- The patterns of texts. -/
def patternsOf (texts : List String) : Except GlobFault (List IgnorePattern) :=
  ignorePatterns (texts.map String.toList)

/-- The patterns of the ignore file in a directory. -/
def ignoredIn (tree : FileTree) (dir : Path) : Except GlobFault (List IgnorePattern) :=
  match tree.readBytes (dir.child ".gitignore") with
  | .ok bytes => ignorePatterns (lines (unifyLineEnds (decodeLossy bytes)))
  | .error _ => .ok []

/-- Why sources cannot be found. -/
inductive DiscoveryFault where
  /-- A pattern cannot be read. -/
  | pattern (f : GlobFault)
  /-- The directory cannot be looked up. -/
  | file (e : FileError)
deriving DecidableEq, Repr

/-- Segments in order. -/
def sortSegments (files : List (List String)) : List (List String) :=
  files.mergeSort fun a b => !decide (b < a)

/-- The sources below a directory, in order. -/
def discover (tree : FileTree) (dir : String) (takeIn leaveOut : List String) :
    Except DiscoveryFault (List Path) := do
  let root := Path.ofText dir
  match ← (tree.find? root).mapError .file with
  | some (.dir entries) =>
    -- patterns are read only where there is a directory, so a bad one tells nothing elsewhere
    let selection : Selection := {
      takeIn := ← (patternsOf (if takeIn.isEmpty then standardPatterns else takeIn)).mapError
        .pattern
      leaveOut := ← (patternsOf leaveOut).mapError .pattern
      ignored := ← (ignoredIn tree root).mapError .pattern }
    return (sortSegments (selection.belowEntries [] entries)).map fun segments =>
      root.join ⟨.here, segments⟩
  | _ => return []

end PayloadTypes.Files
