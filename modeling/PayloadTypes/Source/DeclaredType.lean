import PayloadTypes.Source.TypeShape
import PayloadTypes.Symbols
import PayloadTypes.TypeText.ArrayType
/-!
# Declared types

The type declared beside a field is converted member by member: keywords
by a table, arrays and lists to arrays, any other generic type to the
unknown one, and a class to its short name. The classes met on the way are
recorded, but for those that hold a date, which are texts.
-/

namespace PayloadTypes.Source

open TypeText (arrayOf members splitTopLevel union)

/-- The types of keywords. -/
def keywordTypes : List (String × String) := [
  ("int", "number"), ("integer", "number"), ("float", "number"), ("double", "number"),
  ("positive-int", "number"), ("negative-int", "number"), ("numeric", "number"),
  ("string", "string"), ("class-string", "string"), ("non-empty-string", "string"),
  ("bool", "boolean"), ("boolean", "boolean"), ("true", "boolean"), ("false", "boolean"),
  ("null", TypeText.null), ("void", TypeText.null), ("mixed", TypeText.unknown),
  ("object", TypeText.unknown), ("self", TypeText.unknown), ("static", TypeText.unknown),
  ("array", arrayOf TypeText.unknown), ("iterable", arrayOf TypeText.unknown),
  ("list", arrayOf TypeText.unknown), ("non-empty-array", arrayOf TypeText.unknown),
  ("non-empty-list", arrayOf TypeText.unknown)]

/-- The types of keys that make a list a record. -/
def textKeys : List String := ["string", "non-empty-string", "class-string"]

/-- The classes that hold a date. -/
def dateClasses : List String := [
  "Carbon", "CarbonImmutable", "CarbonInterface", "DateTime", "DateTimeImmutable",
  "DateTimeInterface"]

/-- A converted type. -/
structure Converted where
  /-- Its text. -/
  type : String
  /-- The references to classes met on the way. -/
  references : List String
deriving DecidableEq, Repr

namespace Converted

/-- The type replaced by what `f` makes of it. -/
def map (f : String → String) (t : Converted) : Converted := { t with type := f t.type }

/-- The union of converted types. -/
def union (ts : List Converted) : Converted :=
  ⟨TypeText.union (ts.flatMap fun t => members t.type), ts.flatMap (·.references)⟩

end Converted

/-- A keyword or a class, converted. -/
def convertName (s : List Char) : Converted :=
  match keywordTypes.lookup (String.ofList (Text.lower s)) with
  | some t => ⟨t, []⟩
  | none =>
    let short := Text.lastPiece '\\' (Text.dropEndWhile (· == '\\') s)
    if dateClasses.contains (String.ofList short) then ⟨"string", []⟩
    else ⟨shortName (fullName (String.ofList s)), [String.ofList s]⟩

/-- The text of a shape around the conversion of its inner part. -/
def TypeShape.around : TypeShape → String → String
  | .array _, t => arrayOf t
  | .list none _, t => arrayOf t
  | .list (some key) _, t =>
    if textKeys.contains (String.ofList (Text.lower key)) then "Record<string, " ++ t ++ ">"
    else arrayOf t
  | _, t => t

/-- A type that is no union, up to its first intersection, trimmed. -/
def firstPart (cs : List Char) : List Char := Text.trim ((splitTopLevel '&' cs).headD [])

theorem length_firstPart (cs : List Char) : (firstPart cs).length ≤ cs.length := by
  refine Nat.le_trans (Text.length_trim_le _) ?_
  cases h : splitTopLevel '&' cs with
  | nil => simp
  | cons p ps => exact TypeText.length_le_of_mem_splitTopLevel (by rw [h]; simp)

/-- A type, converted. -/
def convert (t : String) : Converted :=
  match _ht : t.toList with
  -- the mark is taken off before the bars are looked at, so it stands in front of the whole type
  | '?' :: rest => (convert (String.ofList rest)).map fun x => union [x, TypeText.null]
  | cs =>
    if _hm : 1 < (members t).length then
      .union ((members t).attach.map fun m => convert m.1)
    else
      match _hs : (shape (firstPart cs)).inner? with
      | some inner =>
        (convert (String.ofList inner)).map (shape (firstPart cs)).around
      | none =>
        if shape (firstPart cs) = .generic then ⟨TypeText.unknown, []⟩
        else convertName (firstPart cs)
termination_by t.toList.length
decreasing_by
  · rw [_ht]
    simp
  · exact TypeText.length_lt_of_mem_members m.2 _hm
  · have h1 := length_inner?_shape _hs
    have h2 := length_firstPart cs
    rw [String.toList_ofList, _ht]
    omega

/-- The conversion of a declared type; one that is missing or blank is unknown. -/
def convertDeclared : Option String → Converted
  | none => ⟨TypeText.unknown, []⟩
  | some t =>
    match Text.trim t.toList with
    | [] => ⟨TypeText.unknown, []⟩
    | cs => convert (String.ofList cs)

/-- The text of a declared type, where null is either kept or left to the field. -/
def declaredType (nullAsOptional : Bool) (t : Option String) : String :=
  let type := (convertDeclared t).type
  if nullAsOptional then TypeText.stripNull type else type

/-- A declared type allows null. -/
def allowsNull : Option String → Bool
  | none => false
  | some t =>
    match Text.trim t.toList with
    | '?' :: _ => true
    | cs => TypeText.hasNull (String.ofList (Text.lower cs))

end PayloadTypes.Source
