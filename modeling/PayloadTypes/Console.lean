import PayloadTypes.Data.OrderedMap
import PayloadTypes.Json.Printer
/-!
# Consoles

What is asked for goes to the standard output, and all that is told about
it to the standard error. Data is printed plainly or as JSON. Who wants
less is not told what went well; who wants more is told how it went.
-/

namespace PayloadTypes

/-- The formats of data. -/
inductive DataFormat where
  /-- Lines, with tabs between columns. -/
  | plain
  /-- JSON. -/
  | json
deriving DecidableEq, Repr

/-- The name of a format. -/
def DataFormat.name : DataFormat → String
  | .plain => "plain"
  | .json => "json"

/-- How a run prints. -/
structure Console where
  /-- The format of data. -/
  format : DataFormat
  /-- Messages are marked up. -/
  markup : Bool
  /-- What went well is not told. -/
  quiet : Bool
  /-- How it went is told. -/
  verbose : Bool
deriving DecidableEq, Repr

namespace Console

/-- A text as a line. -/
def asLine (text : String) : String := text ++ "\n"

/-! ## Data -/

/-- A value as it is printed on its own. -/
def plainText (v : Value) : String := String.ofList v.plain

/-- A value as it is printed. -/
def structured (c : Console) (v : Value) : String :=
  match c.format with
  | .json => asLine (Json.render .shown v)
  | .plain =>
    match v with
    | .map es => String.join (es.map fun e => asLine (plainText e.1 ++ "\t" ++ plainText e.2))
    | .list items => String.join (items.map fun v => asLine (plainText v))
    | v => asLine (plainText v)

/-- A row of a table by the names of its columns. -/
def record (headers row : List String) : Value :=
  .map ((OrderedMap.ofList (headers.zip row)).entries.map fun e => (.text e.1, .text e.2))

/-- A table as it is printed. -/
def table (c : Console) (headers : List String) (rows : List (List String)) : String :=
  match c.format with
  | .json => asLine (Json.render .shown (.list (rows.map (record headers))))
  | .plain => String.join ((headers :: rows).map fun row => asLine ("\t".intercalate row))

/-! ## Messages -/

/-- A character that may start a tag. -/
def startsTag (c : Char) : Bool := c.isLower || c == '#' || c == '/' || c == '@'

/-- What stands behind a tag that starts here. -/
def afterTag? : List Char → Option (List Char)
  | '[' :: c :: s =>
    if startsTag c then
      match s.dropWhile fun c => c != '[' && c != ']' with
      | ']' :: rest => some rest
      | _ => none
    else none
  | _ => none

/-- A text without its tags, `skip` characters of a tag being left out already. -/
def withoutTags (skip : Nat) : List Char → List Char
  | [] => []
  | c :: s =>
    match skip with
    | n + 1 => withoutTags n s
    | 0 =>
      match afterTag? (c :: s) with
      -- a tag goes without a trace, and what is not closed is no tag
      | some rest => withoutTags (s.length - rest.length) s
      | none => c :: withoutTags 0 s

/-- A message as it is printed. -/
def message (c : Console) (text : String) : String :=
  asLine (if c.markup then String.ofList (withoutTags 0 text.toList) else text)

/-- What is told to those who do not want less. -/
def info (c : Console) (text : String) : String := if c.quiet then "" else c.message text

/-- What went well. -/
def success (c : Console) (text : String) : String := c.info text

/-- What may be wrong. -/
def warning (c : Console) (text : String) : String := c.message ("Warning: " ++ text)

/-- What is wrong. -/
def error (c : Console) (text : String) : String := c.message ("Error: " ++ text)

/-- What may be done next. -/
def suggestion (c : Console) (text : String) : String := c.info ("→ " ++ text)

/-- How it went. -/
def debug (c : Console) (text : String) : String :=
  if c.verbose then c.message ("[debug] " ++ text) else ""

end Console

end PayloadTypes
