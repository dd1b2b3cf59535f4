import PayloadTypes.Files.Tree
/-!
# Changes to file trees

A change makes a tree into another one. One that fails half way leaves what
it has made: the directories above a file stay where the file itself cannot
be written.
-/

namespace PayloadTypes.Files

/-- A change to a tree, which may fail. -/
abbrev Change (α : Type) := ExceptT FileError (StateM FileTree) α

namespace Change

variable {α : Type}

/-- A tree behind a change, and what comes of it. -/
def apply (c : Change α) (t : FileTree) : Except FileError α × FileTree := c.run.run t

/-- What is asked of the tree. -/
def ask (f : FileTree → Except FileError α) : Change α := fun t => (f t, t)

/-- The tree becomes another one. -/
def become (f : FileTree → Except FileError FileTree) : Change Unit := fun t =>
  match f t with
  | .ok t' => (.ok (), t')
  | .error e => (.error e, t)

end Change

namespace FileTree

/-- The tree with a directory where a path leads; nothing stands there yet, and the directory above
does. -/
def withDir (t : FileTree) (p : Path) : Except FileError FileTree := do
  let names ← t.locate p
  if p.segments.isEmpty || p.name = ".." then throw .exists
  match Node.find names t.root with
  | .ok _ => throw .exists
  | .error .notFound => return { t with root := ← Node.set (.dir []) names t.root }
  | .error e => throw e

/-- The tree with a file where a path leads, in the place of another one but not of a directory. -/
def withFile (t : FileTree) (p : Path) (content : ByteArray) : Except FileError FileTree := do
  match t.find p with
  | .ok (.dir _) => throw .isDirectory
  | .ok (.file _) | .error .notFound =>
    return { t with root := ← Node.set (.file content) (← t.locate p) t.root }
  | .error e => throw e

end FileTree

/-- The error of making a directory, unless a directory stands there. -/
def unlessDir (p : Path) (e : FileError) : Change Unit := do
  if e = .zeroCharacter then throw e
  if !(← Change.ask (·.isDir p)) then throw e

/-- A directory is made where the path with some segments leads, last to first, and so are those
above it. -/
def makeDirsAt (start : PathStart) : List String → Change Unit
  | [] => unlessDir ⟨start, []⟩ .exists
  | name :: above => do
    let p : Path := ⟨start, (name :: above).reverse⟩
    match (← get).withDir p with
    | .ok t => set t
    | .error .notFound =>
      -- the directory above is made first, and then this one is tried again
      makeDirsAt start above
      match (← get).withDir p with
      | .ok t => set t
      | .error e => unlessDir p e
    | .error e => unlessDir p e

/-- A directory is made where a path leads, and so are those above it; one that is there already is
left as it is. -/
def makeDirs (p : Path) : Change Unit := makeDirsAt p.start p.segments.reverse

/-- The name of the draft of a file; eight letters of it are drawn by lot. -/
def draftOf (p : Path) : Path := p.parent.child ("." ++ p.name ++ ".xxxxxxxx.tmp")

/-- A file of a text is written where a path leads; the directories above it are made. The text is
put into a draft first, which then takes the place of the file, but not that of a directory. -/
def writeText (p : Path) (text : String) : Change Unit := do
  makeDirs p.parent
  let _ ← Change.ask (·.locate (draftOf p))
  if p.segments.isEmpty || p.name = ".." then throw .busy
  Change.become (·.withFile p text.toUTF8)

/-- Bytes are stored where a path leads; the directories above it are made. -/
def store (p : Path) (content : ByteArray) : Change Unit := do
  makeDirs p.parent
  Change.become (·.withFile p content)

end PayloadTypes.Files
