import PayloadTypes.TypeText.Scan
/-!
# Unions

The members of a union are the trimmed, non-empty parts of its text between
top-level bars. A type is nullable when `null` is a member of it; a `null`
further inside does not count.
-/

namespace PayloadTypes.TypeText

/-- The type of which nothing is known. -/
def unknown : String := "unknown"

/-- The type of nothing. -/
def null : String := "null"

/-- The top-level members of a union. -/
def members (t : String) : List String :=
  (((splitTopLevel '|' t.toList).map Text.trim).filter fun p => !p.isEmpty).map String.ofList

/-- The union of members, later duplicates left out. -/
def union (ms : List String) : String := " | ".intercalate ms.eraseDups

/-- `null` is a top-level member. -/
def hasNull (t : String) : Bool := (members t).contains null

/-- The union without its top-level `null`; a type that is no union is left as it is. -/
def stripNull (t : String) : String :=
  if (members t).length < 2 then t
  else
    match (members t).filter (· != null) with
    | [] => unknown
    | kept => union kept

/-- The type with `null` added where it is wanted and not there yet. -/
def applyNullability (t : String) (nullable : Bool) : String :=
  if !nullable || hasNull t then t else t ++ " | " ++ null

end PayloadTypes.TypeText
