import PayloadTypes.Failure
/-!
# Notices

What a run notes on its way without ending for it. Most notices are for
those who look for the reason of a result; the warnings tell that something
was left out.
-/

namespace PayloadTypes

/-- What a run notes on its way. -/
inductive Notice where
  /-- The file of a resource has no method to keep, so all of it is kept. -/
  | wholeFile (path : String)
  /-- A source cannot be read. -/
  | unreadableFile (path : String)
  /-- Two classes have one short name. -/
  | collision (name path previous : String)
  /-- A resource has no method that tells its fields. -/
  | noMethod (name : String)
  /-- Classes were looked through for declarations. -/
  | classesRead (classes declarations : Nat)
  /-- A directory was looked through for declarations. -/
  | sourcesRead (path : String) (declarations : Nat)
  /-- A source returns no array literal. -/
  | noLiteral
  /-- A request has no fields. -/
  | requestSkipped (name : String)
  /-- A resource has no fields. -/
  | resourceSkipped (name : String)
  /-- Declarations were generated. -/
  | generated (declarations skipped unresolved : Nat)
  /-- A file holds what would be written. -/
  | upToDate (path : String)
  /-- A file holds no text to compare with. -/
  | notComparable (path : String) (fault : Files.Utf8Fault)
deriving DecidableEq, Repr

namespace Notice

/-- A number in a notice. -/
def decimal (n : Nat) : String := String.ofList (Text.natDigits n)

/-- The notice tells that something was left out. -/
def isWarning : Notice → Bool
  | .unreadableFile _ | .collision .. => true
  | _ => false

/-- The part of the program that a notice comes from. -/
def channel : Notice → String
  | .wholeFile _ => "ruletype.parser.loader"
  | .unreadableFile _ | .collision .. | .noMethod _ | .classesRead .. => "ruletype.parser.scanner"
  | .sourcesRead .. => "ruletype.parser.project"
  | .noLiteral => "ruletype.response.inferencer"
  | .requestSkipped _ | .resourceSkipped _ | .generated .. => "ruletype.generator.pipeline"
  | .upToDate _ | .notComparable .. => "ruletype.generator.emitter"

/-- The sentence that tells a notice. -/
def message : Notice → String
  | .wholeFile path => "No toArray method in " ++ path ++ ", using the whole file"
  | .unreadableFile path => "Skipping unreadable file " ++ path
  | .collision name path previous =>
    "Class name " ++ name ++ " in " ++ path ++ " collides with the one in " ++ previous ++
      "; the later one wins"
  | .noMethod name => "Resource " ++ name ++ " has no toArray method, skipping"
  | .classesRead classes declarations =>
    "Scanned " ++ decimal classes ++ " classes, found " ++ decimal declarations ++ " declarations"
  | .sourcesRead path declarations =>
    "Scanned " ++ path ++ ": " ++ decimal declarations ++ " declarations"
  | .noLiteral => "No returned array literal found"
  | .requestSkipped name => "Skipping request " ++ name ++ ": no rule fields"
  | .resourceSkipped name => "Skipping resource " ++ name ++ ": no returned fields"
  | .generated declarations skipped unresolved =>
    "Generated " ++ decimal declarations ++ " declarations (" ++ decimal skipped ++
      " skipped, " ++ decimal unresolved ++ " unresolved)"
  | .upToDate path => path ++ " is up to date"
  | .notComparable path fault => "Could not read existing " ++ path ++ ": " ++ fault.message

/-- The line that shows a notice. -/
def line (n : Notice) : String :=
  (if n.isWarning then "WARNING " else "DEBUG ") ++ n.channel ++ ": " ++ n.message

end Notice

/-- What a run may do: note things and end early. -/
abbrev Noting (α : Type) := ExceptT Error (StateM (List Notice)) α

namespace Noting

variable {α : Type}

/-- A notice is added to those so far. -/
def note (n : Notice) : Noting Unit := fun ns => (.ok (), ns ++ [n])

/-- The run ends with a failure. -/
def fail (f : Failure) : Noting α := throw (.failure f)

/-- The run ends with a fault. -/
def fault (f : Fault) : Noting α := throw (.fault f)

/-- What comes of looking at files. -/
def look (r : Except Files.FileError α) : Noting α :=
  match r with
  | .ok a => return a
  | .error e => fault (.file e)

/-- What comes of reading a text that is in its format. -/
def read (r : Except ReadFault α) : Noting α :=
  match r with
  | .ok a => return a
  | .error f => fault (.unreadable f)

/-- The result and the notices of a run. -/
def result (x : Noting α) : Except Error α × List Notice := x.run.run []

end Noting

end PayloadTypes
