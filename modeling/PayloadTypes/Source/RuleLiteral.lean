import PayloadTypes.Rule.Basic
import PayloadTypes.Source.ArrayLiteral
import PayloadTypes.Source.Scalar
import PayloadTypes.Source.Scope
/-!
# Rules in sources

A rule is written as a string, an array of rules, the construction of an
enum rule, or a call of the rule facade. What is written in any other way
is kept as it is.
-/

namespace PayloadTypes.Source

open Text (Reader)
open Text.Reader

/-- A class constant: the name of the class. -/
def classConstant : Reader String := do
  let name ← many1 isNameChar
  text "::class"
  return String.ofList name

/-- A rule constructed of a class: the rule's name and the class. -/
def constructedRule : Reader (String × String) := do
  text "new"
  blanks1
  let name ← many1 isNameChar
  blanks
  char '('
  blanks
  let target ← classConstant
  blanks
  char ')'
  atEnd
  return (String.ofList name, target)

/-- A call of the rule facade up to its arguments: the name of the rule. -/
def facadeCall : Reader String := do
  let _ ← maybe (char '\\')
  let _ ← maybe (text "Illuminate\\Validation\\")
  text "Rule::"
  let name ← identifier
  blanks
  char '('
  return String.ofList name

/-- The parts of a list that are not blank, trimmed. -/
def arguments (s : List Char) : List (List Char) :=
  ((splitCommas s).map Text.trim).filter fun a => !a.isEmpty

/-- The name in lower case, with an underscore in front of every capital but the first letter. -/
def snakeCase (name : String) : String :=
  match name.toList with
  | [] => ""
  | c :: cs =>
    String.ofList (c.toLower :: cs.flatMap fun d =>
      if d.isUpper then ['_', d.toLower] else [d])

/-- The rule of a class constant; anything else is kept as `source`. -/
def enumOf (scope : Scope) (source argument : List Char) : Rule :=
  match accepts? (do
      let name ← classConstant
      atEnd
      return name) argument with
  | some name => .enum (scope.resolve name)
  | none => .unread (String.ofList source)

/-- The values that the arguments of a choice list, as they are written. -/
def writtenValues : List (List Char) → List (List Char)
  | ['[' :: rest] => splitCommas rest.dropLast
  | args => args

/-- The texts of scalars, unless there is anything else among them. -/
def scalarTexts? : List (List Char) → Except ReadFault (Option (List String))
  | [] => .ok (some [])
  | s :: ss => do
    match ← scalar? s with
    | none => return none
    | some v => return (← scalarTexts? ss).map (Rule.scalarText v :: ·)

/-- The rule that a call of the facade makes. -/
def facadeRule (scope : Scope) (source : List Char) (name : String) (args : List (List Char)) :
    Except ReadFault Rule := do
  let unread := Rule.unread (String.ofList source)
  match name, args with
  | "enum", first :: _ => return enumOf scope source first
  | "in", _ :: _ => return ((← scalarTexts? (writtenValues args)).map Rule.choice).getD unread
  | "notIn", _ :: _ =>
    return ((← scalarTexts? (writtenValues args)).map (Rule.call "not_in")).getD unread
  -- of other rules the arguments that are scalars count, and the rest is passed over
  | name, args =>
    let scalars ← args.mapM scalar?
    return .call (snakeCase name) ((scalars.filterMap id).map Rule.scalarText)

/-- The rule of the construction of a class; one of no known class is kept as `source`. -/
def constructed (scope : Scope) (source : List Char) (name target : String) : Rule :=
  match String.ofList (Text.lastPiece '\\' (scope.resolve name).toList) with
  | "Enum" => .enum (scope.resolve target)
  | "EnumRule" => .enumValue (scope.resolve target)
  | _ => .unread (String.ofList source)

/-- The content of a text that is one array. -/
def arrayContent? : List Char → Option (List Char)
  | '[' :: rest =>
    match enclosed? '[' rest with
    | some (inner, []) => some inner
    | _ => none
  | _ => none

/-- The rule of an expression that is no scalar and no array. -/
def callRule (scope : Scope) (s : List Char) : Except ReadFault Rule :=
  match accepts? constructedRule s with
  | some (name, target) => .ok (constructed scope s name target)
  | none =>
    match facadeCall s with
    | some (name, rest) =>
      match enclosed? '(' rest with
      | some (args, _) => facadeRule scope s name (arguments args)
      -- a call that is not closed is kept as it is written
      | none => .ok (.unread (String.ofList s))
    | none => .ok (.unread (String.ofList s))

theorem length_arrayContent? {s inner : List Char} (h : arrayContent? s = some inner) :
    inner.length < s.length := by
  unfold arrayContent? at h
  split at h
  · split at h
    · next he =>
      cases h
      have := length_enclosed? he
      simp only [List.length_nil, List.length_cons] at this ⊢
      omega
    · cases h
  · cases h

/-- The rule that an expression is. -/
def readRule (scope : Scope) (expression : List Char) : Except ReadFault Rule :=
  let s := Text.trim expression
  match scalar? s with
  | .error f => .error f
  | .ok (some (.text t)) => .ok (.text t)
  -- a scalar of another kind is no rule
  | .ok (some _) => .ok (.unread (String.ofList s))
  | .ok none =>
    match _h : arrayContent? s with
    | some inner =>
      (((splitCommas inner).filter fun p => !(Text.trim p).isEmpty).attach.mapM fun p =>
        readRule scope p.1).map .list
    | none => callRule scope s
termination_by expression.length
decreasing_by
  have h1 := length_arrayContent? _h
  have h2 := length_le_of_mem_splitCommas (List.mem_filter.mp p.2).1
  have h3 : s.length ≤ expression.length := Text.length_trim_le expression
  omega

/-- The rules under the keys of the array that a method returns. -/
def rulesOf (scope : Scope) (source : List Char) : Except ReadFault (OrderedMap Rule) :=
  match returnedLiteral? source with
  | some content => (entries content).tryMapValues fun _ e => readRule scope e.toList
  | none => .ok .empty

end PayloadTypes.Source
