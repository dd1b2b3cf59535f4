import PayloadTypes.Files.Path
import PayloadTypes.Files.Utf8
/-!
# File trees

A tree of files and directories, in which a directory lists its entries in
some order. A working directory makes it a place where paths lead
somewhere: a path is followed segment by segment through directories that
exist, and a double dot leads to the directory above. Names and paths have a
greatest length, counted in bytes, and no path holds the character 0.
-/

namespace PayloadTypes.Files

/-- Why an operation on files fails. -/
inductive FileError where
  /-- There is nothing of that name. -/
  | notFound
  /-- A directory stands where a file is wanted. -/
  | isDirectory
  /-- A file stands where a directory is wanted. -/
  | notDirectory
  /-- A file stands where a directory is to be made. -/
  | exists
  /-- The name stands for a directory that is in use. -/
  | busy
  /-- A name or a path is longer than names and paths may be. -/
  | tooLong
  /-- A path holds the character 0. -/
  | zeroCharacter
deriving DecidableEq, Repr

/-- A file or a directory. -/
inductive Node where
  /-- A file. -/
  | file (content : ByteArray)
  /-- A directory. -/
  | dir (entries : List (String × Node))

namespace Node

/-- What a name stands for in a list of entries. -/
def lookup (name : String) : List (String × Node) → Option Node
  | [] => none
  | e :: es => if e.1 = name then some e.2 else lookup name es

/-- A list of entries with a node under a name. -/
def put (name : String) (n : Node) : List (String × Node) → List (String × Node)
  | [] => [(name, n)]
  | e :: es => if e.1 = name then (name, n) :: es else e :: put name n es

/-- What stands at the end of a row of names. -/
def find : List String → Node → Except FileError Node
  | [], n => .ok n
  | _ :: _, .file _ => .error .notDirectory
  | name :: names, .dir entries =>
    match lookup name entries with
    | some n => find names n
    | none => .error .notFound

/-- The tree with a node at the end of a row of names, the directory above being there. -/
def set (new : Node) : List String → Node → Except FileError Node
  | [], _ => .ok new
  | _ :: _, .file _ => .error .notDirectory
  | [name], .dir entries => .ok (.dir (put name new entries))
  | name :: names, .dir entries =>
    match lookup name entries with
    | some n => (set new names n).map fun n => .dir (put name n entries)
    | none => .error .notFound

end Node

/-- A tree and the directory in it in which one works. -/
structure FileTree where
  /-- What stands at the root. -/
  root : Node
  /-- The names that lead to the working directory. -/
  here : List String

namespace FileTree

/-- How many bytes a name has at most. -/
def longestName : Nat := 255

/-- How many bytes a path has at most. -/
def longestPath : Nat := 4095

/-- The names that lead from the root to where a path leads, `start` being those to its start, last
to first. All but the last one have to be there. -/
def locateFrom (root : Node) (start : List String) : List String → Except FileError (List String)
  | [] => .ok start
  | name :: names =>
    match Node.find start.reverse root with
    | .error e => .error e
    | .ok (.file _) => .error .notDirectory
    | .ok (.dir _) =>
      -- two dots lead to the directory above, and above the root there is the root
      if longestName < name.utf8ByteSize then .error .tooLong
      else locateFrom root (if name = ".." then start.tail else name :: start) names

/-- The names that lead from the root to where a path leads. -/
def locate (t : FileTree) (p : Path) : Except FileError (List String) :=
  if p.text.toList.contains (Char.ofNat 0) then .error .zeroCharacter
  else if longestPath < p.text.utf8ByteSize then .error .tooLong
  else (locateFrom t.root (if p.isAbsolute then [] else t.here.reverse) p.segments).map
    List.reverse

/-- What a path leads to. -/
def find (t : FileTree) (p : Path) : Except FileError Node := do Node.find (← t.locate p) t.root

/-- What a path leads to, if it leads somewhere; a path that is too long is no answer. -/
def find? (t : FileTree) (p : Path) : Except FileError (Option Node) :=
  match t.find p with
  | .ok n => .ok (some n)
  | .error .tooLong => .error .tooLong
  | .error _ => .ok none

/-- The path leads to a file. -/
def isFile (t : FileTree) (p : Path) : Except FileError Bool :=
  (t.find? p).map fun n =>
    match n with
    | some (.file _) => true
    | _ => false

/-- The path leads to a directory. -/
def isDir (t : FileTree) (p : Path) : Except FileError Bool :=
  (t.find? p).map fun n =>
    match n with
    | some (.dir _) => true
    | _ => false

/-- The path leads to something. -/
def holds (t : FileTree) (p : Path) : Except FileError Bool := (t.find? p).map Option.isSome

/-- The bytes of a file. -/
def readBytes (t : FileTree) (p : Path) : Except FileError ByteArray := do
  match ← t.find p with
  | .file content => return content
  | .dir _ => throw .isDirectory

/-- The tree with a node where a path leads. -/
def set (t : FileTree) (p : Path) (n : Node) : Except FileError FileTree := do
  return { t with root := ← Node.set n (← t.locate p) t.root }

end FileTree

/-- Why a text cannot be read. -/
inductive ReadError where
  /-- There is no file to read. -/
  | file (e : FileError)
  /-- The file holds no text. -/
  | encoding (f : Utf8Fault)
deriving DecidableEq, Repr

/-- The text of bytes, with one line break for every kind of line end. -/
def textOfBytes (bytes : ByteArray) : Except Utf8Fault String :=
  (decode bytes).map fun s => String.ofList (unifyLineEnds s.toList)

/-- The text of a file, with one line break for every kind of line end. -/
def FileTree.readText (t : FileTree) (p : Path) : Except ReadError String :=
  match t.readBytes p with
  | .error e => .error (.file e)
  | .ok bytes => (textOfBytes bytes).mapError .encoding

/-- The path as it leads from the root. -/
def FileTree.resolve (t : FileTree) (p : Path) : Path :=
  match t.locate p with
  | .ok names => ⟨.root, names⟩
  | .error _ => ⟨.root, if p.isAbsolute then p.segments else t.here ++ p.segments⟩

end PayloadTypes.Files
