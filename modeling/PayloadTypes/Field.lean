/-!
# Fields

A field of a declared type, the result of all inference.
-/

namespace PayloadTypes

/-- A field of a declared type. -/
structure Field where
  /-- Its name. -/
  name : String
  /-- The text of its type. -/
  type : String
  /-- It may be left out. -/
  optional : Bool
deriving DecidableEq, Repr

end PayloadTypes
