import PayloadTypes.Data.OrderedMap
import PayloadTypes.Data.Value
/-!
# Checking data

Data is checked part by part, and all issues are told, in the order of the
parts. An issue has a place, the keys and indexes that lead to it, and says
what was wanted there.
-/

namespace PayloadTypes

/-- A step on the way to a place in data. -/
inductive Step where
  /-- A key. -/
  | key (name : String)
  /-- An index, or a key that is an integer. -/
  | index (i : Int)
deriving DecidableEq, Repr

/-- What was wanted at a place. -/
inductive IssueKind where
  /-- A text. -/
  | text
  /-- A map. -/
  | map
  /-- A list. -/
  | list
  /-- A map of settings. -/
  | settings
  /-- A truth value, of which this is no spelling. -/
  | truthSpelling
  /-- A truth value. -/
  | truth
  /-- An integer. -/
  | integer
  /-- An integer, not a fraction. -/
  | whole
  /-- An integer of at most 64 bits. -/
  | size
  /-- A finite number. -/
  | finite
deriving DecidableEq, Repr

/-- The name of a kind of issues. -/
def IssueKind.name : IssueKind → String
  | .text => "string_type"
  | .map => "dict_type"
  | .list => "list_type"
  | .settings => "model_type"
  | .truthSpelling => "bool_parsing"
  | .truth => "bool_type"
  | .integer => "int_type"
  | .whole => "int_from_float"
  | .size => "int_parsing_size"
  | .finite => "finite_number"

/-- What is wrong with data, and where. -/
structure Issue where
  /-- The way to the place. -/
  place : List Step
  /-- What was wanted there. -/
  kind : IssueKind
deriving DecidableEq, Repr

/-- Checked data, or all its issues. -/
abbrev Checked (α : Type) := Except (List Issue) α

namespace Checked

variable {α β : Type}

/-- Data with one issue. -/
def refuse (place : List Step) (kind : IssueKind) : Checked α := .error [⟨place, kind⟩]

/-- A function and its argument, both checked, the issues of both told. -/
def apply (f : Checked (α → β)) (a : Checked α) : Checked β :=
  match f, a with
  | .ok f, .ok a => .ok (f a)
  | .ok _, .error es => .error es
  | .error es, .ok _ => .error es
  | .error es, .error more => .error (es ++ more)

/-- `apply` with the argument first, for one part after the other. -/
def also (a : Checked α) (f : Checked (α → β)) : Checked β := apply f a

/-- Checked parts together. -/
def all : List (Checked α) → Checked (List α)
  | [] => .ok []
  | a :: as => apply (apply (.ok List.cons) a) (all as)

end Checked

/-- Half of the number of integers that 64 bits tell apart. -/
def longBound : Int := 9223372036854775808

/-- The integer has a place among those of 64 bits. -/
def isLong (i : Int) : Bool := -longBound ≤ i && i < longBound

/-- The integer and its negative have a place among those of 64 bits. -/
def isBalancedLong (i : Int) : Bool := -longBound < i && i < longBound

/-- The step that a key is. -/
def stepOf : Value → Step
  | .text s => .key s
  | .bool b => .index (if b then 1 else 0)
  | .int i =>
    if isLong i then .index i else .key (String.ofList (Text.intDigits i))
  | v => .key (String.ofList v.shown)

/-- A text. -/
def checkText (place : List Step) : Value → Checked String
  | .text s => .ok s
  | _ => .refuse place .text

/-- A text or nothing. -/
def checkText? (place : List Step) : Value → Checked (Option String)
  | .null => .ok none
  | v => (checkText place v).map some

/-- A list of texts. -/
def checkTexts (place : List Step) : Value → Checked (List String)
  | .list items =>
    .all (items.zipIdx.map fun i => checkText (place ++ [.index i.2]) i.1)
  | _ => .refuse place .list

/-- The spellings of truth values. -/
def truthSpellings : List (String × Bool) := [
  ("0", false), ("off", false), ("f", false), ("false", false), ("n", false), ("no", false),
  ("1", true), ("on", true), ("t", true), ("true", true), ("y", true), ("yes", true)]

/-- An integer of at most 64 bits as a truth value. -/
def truthOfInt (place : List Step) (i : Int) : Checked Bool :=
  if i = 0 then .ok false else if i = 1 then .ok true else .refuse place .truthSpelling

/-- A truth value, in one of its spellings. -/
def checkTruth (place : List Step) : Value → Checked Bool
  | .bool b => .ok b
  | .text s =>
    match truthSpellings.lookup (String.ofList (s.toList.map Char.toLower)) with
    | some b => .ok b
    | none => .refuse place .truthSpelling
  | .int i => if isLong i then truthOfInt place i else .refuse place .truth
  | .float x =>
    match Decimal.toInt? x with
    | some i => if isBalancedLong i then truthOfInt place i else .refuse place .truth
    | none => .refuse place .truth
  | _ => .refuse place .truth

/-- The integer that a floating point number is, or what makes it none. -/
def integerOfFloat (x : Float) : Except IssueKind Int :=
  match Decimal.parts x with
  | .finite .. =>
    match Decimal.toInt? x with
    | some i => if isBalancedLong i then .ok i else .error .size
    | none => .error .whole
  | _ => .error .finite

/-- The entries of a map, each checked at its key; a key has to be a text. -/
def checkEntries {α : Type} (place : List Step) (check : List Step → Value → Checked α)
    (es : List (Value × Value)) : Checked (OrderedMap α) :=
  (Checked.all (es.map fun e =>
    let here := place ++ [stepOf e.1]
    Checked.apply (Checked.apply (.ok Prod.mk)
      (match e.1 with
      | .text k => .ok k
      | _ => .refuse (here ++ [.key "[key]"]) .text))
      (check here e.2))).map OrderedMap.ofList

/-- A map, each of its values checked. -/
def checkMap {α : Type} (place : List Step) (check : List Step → Value → Checked α) :
    Value → Checked (OrderedMap α)
  | .map es => checkEntries place check es
  | _ => .refuse place .map

/-- What is under a key, checked, or what stands in its place. -/
def checkField {α : Type} (place : List Step) (es : List (Value × Value)) (key : String)
    (check : List Step → Value → Checked α) (default : α) : Checked α :=
  match Value.get? key es with
  | some v => check (place ++ [.key key]) v
  | none => .ok default

end PayloadTypes
