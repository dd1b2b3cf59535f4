import PayloadTypes.Data.OrderedMap
import PayloadTypes.Files.Path
/-!
# Environments

The variables of an environment tell where the files of a user are kept:
under the base directories for settings and for data, or else below the
home directory.
-/

namespace PayloadTypes

open Files (Path)

/-- The environment of a run. -/
structure Environment where
  /-- The variables. -/
  vars : OrderedMap String
  /-- The platform has base directories for the files of a user. -/
  baseDirs : Bool

namespace Environment

/-- The value of a variable, if it is set and not empty. -/
def get? (e : Environment) (name : String) : Option String :=
  match e.vars.get? name with
  | some "" => none
  | v => v

/-- The home directory. -/
def home (e : Environment) : Path := Path.ofText ((e.get? "HOME").getD "/")

/-- The name of the program's own directories. -/
def ownName : String := "ruletype"

/-- The program's own directory in a base directory. -/
def ownDir (e : Environment) (name : String) (standard : List String) : Path :=
  let base :=
    match e.get? name with
    | some dir => Path.ofText dir
    | none => e.home.join ⟨.here, standard⟩
  base.child ownName

/-- The program's own directory where there are no base directories. -/
def plainDir (e : Environment) : Path := e.home.child ("." ++ ownName)

/-- The directory of the user's settings. -/
def settingsDir (e : Environment) : Path :=
  if e.baseDirs then e.ownDir "XDG_CONFIG_HOME" [".config"] else e.plainDir

/-- The directory of the user's data. -/
def dataDir (e : Environment) : Path :=
  if e.baseDirs then e.ownDir "XDG_DATA_HOME" [".local", "share"] else e.plainDir.child "logs"

end Environment

end PayloadTypes
