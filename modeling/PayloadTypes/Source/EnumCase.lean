import PayloadTypes.Source.ArrayLiteral
import PayloadTypes.Source.Docblock
import PayloadTypes.Source.Member
import PayloadTypes.Source.Scalar
/-!
# Cases of enums

An enum lists its cases. A class that stands for an enum returns the values
of its cases from a function, and its doc comment may declare more of them.
A case without a value of its own has its label for one.
-/

namespace PayloadTypes.Source

open Text (Reader)
open Text.Reader

/-- The value of a case, as it is written. -/
def caseValue : Reader (List Char) := do
  char '='
  many1 (· != ';')

/-- A case at the start of a line: its label and its value. -/
def caseLine : Reader (List Char × Option (List Char)) := do
  blanks
  text "case"
  blanks1
  let label ← identifier
  blanks
  let value ← maybe caseValue
  char ';'
  return (label, value)

/-- The value that a case has: a text, an integer or a truth value, or else its label. -/
def valueOr (label : String) (written : Option (List Char)) : Except ReadFault Value := do
  match ← (written.map scalar?).getD (.ok none) with
  | some (.text s) => return .text s
  | some (.int i) => return .int i
  | some (.bool b) => return .bool b
  | _ => return .text label

/-- The cases of an enum. -/
def listedCases (body : List Char) : Except ReadFault (OrderedMap Value) :=
  ((findAll (lineStart caseLine) body).mapM fun p =>
    (valueOr (String.ofList p.1) p.2).map fun v => (String.ofList p.1, v)).map OrderedMap.ofList

/-- The cases whose values a class returns. -/
def returnedCases (body : List Char) : Except ReadFault (OrderedMap Value) :=
  match (methodSource? body "values").bind returnedLiteral? with
  | some content => (entries content).tryMapValues fun key e => valueOr key (some e.toList)
  | none => .ok .empty

/-- The cases with every label of a list that is not among them. -/
def withLabels (cases : OrderedMap Value) (labels : List String) : OrderedMap Value :=
  labels.foldl (fun m l => if m.contains l then m else m.insert l (.text l)) cases

/-- The cases of an enum or of a class that stands for one. -/
def ClassDecl.cases (c : ClassDecl) : Except ReadFault (OrderedMap Value) :=
  if c.kind = .enumeration then listedCases c.body.toList
  else (returnedCases c.body.toList).map fun m => withLabels m (caseTags c.docblock.toList)

end PayloadTypes.Source
