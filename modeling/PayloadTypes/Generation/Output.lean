import PayloadTypes.Files.Change
import PayloadTypes.Notice
/-!
# Writing declarations

A file is written only when it does not hold what would be written already,
so that a file is touched exactly when its declarations change.
-/

namespace PayloadTypes

open Files (Change FileError FileTree Path)

/-- A path leads to a file that holds a text, all line ends being one. -/
def upToDate (tree : FileTree) (path : Path) (text : String) : Except FileError Bool := do
  if !(← tree.isFile path) then return false
  match tree.readText path with
  | .ok held => return held == text
  | .error _ => return false

/-- What is noted while a file is compared. -/
def comparisonNotices (tree : FileTree) (path : Path) : List Notice :=
  match tree.readText path with
  | .error (.encoding f) => [.notComparable path.text f]
  | _ => []

/-- A file is to hold a text: it is written unless it does already. The result tells whether it was
written. -/
def writeOutput (path : Path) (text : String) : Change Bool := do
  if ← Change.ask (upToDate · path text) then return false
  Files.writeText path text
  return true

/-- What is noted while a file is written. -/
def writingNotices (tree : FileTree) (path : Path) (text : String) : List Notice :=
  match upToDate tree path text with
  | .ok true => [.upToDate path.text]
  | _ => comparisonNotices tree path

end PayloadTypes
