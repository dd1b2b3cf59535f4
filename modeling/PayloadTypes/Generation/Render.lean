import PayloadTypes.Generation.Basic
import PayloadTypes.Settings.Basic
import PayloadTypes.Generation.Generate
/-!
# The text of declarations

A generation is written as one file: the envelope of responses, if some
type has it, then type after type. An object type has one line for each
field, a collection is an array or a page of one, and an enum is the union
of its values or, where that is wanted, an enum. An enum is not written
where a value of it is an integer with more digits than are written.
-/

namespace PayloadTypes

/-- One step of indentation. -/
def indent : String := "    "

/-- Lines as one text, without a line break at the end. -/
def joinLines (lines : List String) : String := "\n".intercalate lines

/-- The type of the envelope that a response has. -/
def envelope : String := joinLines [
  "export type ApiResponse<T> =",
  indent ++ "| \x7b success: true; message: string; data: T \x7d",
  indent ++ "| \x7b success: false; message: string; errors?: Record<string, unknown> \x7d;"]

/-- A field. -/
def Field.line (f : Field) : String :=
  indent ++ TypeText.propertyName f.name ++ (if f.optional then "?" else "") ++ ": " ++ f.type ++
    ";"

/-- The type of an object. -/
def objectType : List Field → String
  | [] => "\x7b\x7d"
  | fs => joinLines (["\x7b"] ++ fs.map (·.line) ++ ["\x7d"])

/-- The names and types that a page tells about its neighbours. -/
def pageLinks : List String := [
  "first?: string;", "last?: string;", "prev?: string | null;", "next?: string | null;"]

/-- The names and types that a page tells about itself. -/
def pageMeta : List String := [
  "current_page: number;", "from?: number | null;", "last_page: number;", "path: string;",
  "per_page: number;", "to?: number | null;", "total: number;"]

/-- The type of a collection: an array of its items or a page of it. -/
def pagedType (item : String) : String :=
  let inner := indent ++ "      "
  let group (name : String) (lines : List String) : List String :=
    [inner ++ name ++ ": \x7b"] ++ lines.map (fun l => inner ++ indent ++ l) ++ [inner ++ "\x7d;"]
  joinLines
    ([indent ++ "| Array<" ++ item ++ ">", indent ++ "| \x7b",
      inner ++ "data: Array<" ++ item ++ ">;"] ++
      group "links" pageLinks ++ group "meta" pageMeta ++ [indent ++ "  \x7d"])

/-- A case of an enum. -/
def caseLine (label : String) (value : CaseValue) : String :=
  indent ++ label ++ " = " ++ value.literal ++ ","

/-- An enum. -/
def enumText (name : String) (cases : OrderedMap CaseValue) : String :=
  match cases.entries with
  | [] => "export enum " ++ name ++ " \x7b\x7d"
  | es =>
    joinLines (["export enum " ++ name ++ " \x7b"] ++ es.map (fun e => caseLine e.1 e.2) ++
      ["\x7d"])

/-- A type under its name. -/
def typeText (name type : String) : String := "export type " ++ name ++ " = " ++ type ++ ";"

namespace TypeDecl

/-- The type of the items of a collection. -/
def itemType (d : TypeDecl) : String :=
  ((filled? (TypeText.itemType? (d.body.getD ""))).getD TypeText.unknown)

/-- A declaration whose values can be written, without the type that stands beside it. -/
def text (nativeEnums : Bool) (d : TypeDecl) : String :=
  match d.kind with
  | .enum =>
    if nativeEnums then enumText d.name d.cases
    else typeText d.name ((filled? d.body).getD neverType)
  | .collection => "export type " ++ d.name ++ " =\n" ++ pagedType d.itemType ++ ";"
  | _ => typeText d.name (objectType d.fields)

/-- The declaration can be written: only the lines of an enum hold values. -/
def isWritable (nativeEnums : Bool) (d : TypeDecl) : Bool :=
  d.kind != .enum || !nativeEnums || areWritable d.cases

/-- Write a declaration, without the type that stands beside it. -/
def written (nativeEnums : Bool) (d : TypeDecl) : Except ReadFault String :=
  if d.isWritable nativeEnums then .ok (d.text nativeEnums) else .error .longInteger

/-- A declaration and the type that stands beside it. -/
def blocks (nativeEnums : Bool) (d : TypeDecl) : List String :=
  d.text nativeEnums ::
    if d.responseAlias then [typeText (d.name ++ "Response") ("ApiResponse<" ++ d.name ++ ">")]
    else []

end TypeDecl

namespace Generation

/-- The file of a generation whose values can be written. -/
def render (g : Generation) (s : Settings) : String :=
  joinLines ((if g.usesEnvelope then [envelope] else []) ++
    g.declarations.flatMap (·.blocks s.nativeEnums)) ++ "\n"

/-- Write the file of a generation. -/
def written (g : Generation) (s : Settings) : Except ReadFault String :=
  if g.declarations.all (·.isWritable s.nativeEnums) then .ok (g.render s)
  else .error .longInteger

end Generation

end PayloadTypes
