import PayloadTypes.Project.Basic
import PayloadTypes.Rule.Manifest
import PayloadTypes.Validation
/-!
# Checking declarations

The entries of a manifest are checked for what a declaration needs. What is
not asked for is left aside, and what may be missing has a default.
-/

namespace PayloadTypes

open Checked (also)

/-- The value of a case: an integer or a text. What is neither has two issues, one for each. -/
def checkCase (place : List Step) : Value → Checked CaseValue
  | .text s => .ok (.text s)
  | .int i => .ok (.int i)
  | .bool b => .ok (.int (if b then 1 else 0))
  | v =>
    let refused (k : IssueKind) : Checked CaseValue :=
      .error [⟨place ++ [.key "int"], k⟩, ⟨place ++ [.key "str"], .text⟩]
    match v with
    | .float x =>
      match integerOfFloat x with
      | .ok i => .ok (.int i)
      | .error k => refused k
    | _ => refused .integer

/-- The rules of a request; any value is a rule. -/
def checkRules (place : List Step) (v : Value) : Checked (OrderedMap Rule) :=
  if v.isTruthy then checkMap place (fun _ v => .ok (Rule.ofValue v)) v else .ok .empty

/-- The declared types of properties. -/
def checkProperties (place : List Step) : Value → Checked (OrderedMap String) :=
  checkMap place checkText

section

variable (place : List Step) (es : List (Value × Value))

/-- A name, which has to be there. -/
def checkName : Checked String :=
  checkText (place ++ [.key "name"]) ((Value.get? "name" es).getD .null)

/-- The file a declaration comes from. -/
def checkSourceFile : Checked (Option String) := checkField place es "source_file" checkText? none

/-- A request. -/
def checkRequest : Checked RequestDecl :=
  let make : Checked _ := .ok RequestDecl.mk
  make
    |> also (checkName place es)
    |> also (checkField place es "rules" checkRules .empty)
    |> also (checkField place es "properties" checkProperties .empty)
    |> also (checkSourceFile place es)

/-- A resource. -/
def checkResource : Checked ResourceDecl :=
  let make : Checked _ := .ok ResourceDecl.mk
  make
    |> also (checkName place es)
    |> also (checkField place es "source" checkText "")
    |> also (checkField place es "mixin" checkText? none)
    |> also (checkField place es "data" checkText? none)
    |> also (checkSourceFile place es)

/-- A collection. -/
def checkCollection : Checked CollectionDecl :=
  let make : Checked _ := .ok CollectionDecl.mk
  make
    |> also (checkName place es)
    |> also (checkField place es "collects" checkText? none)
    |> also (checkSourceFile place es)

/-- A data object. -/
def checkData : Checked DataDecl :=
  let make : Checked _ := .ok DataDecl.mk
  make
    |> also (checkName place es)
    |> also (checkField place es "properties" checkProperties .empty)
    |> also (checkSourceFile place es)

/-- An enum. -/
def checkEnum : Checked EnumDecl :=
  let make : Checked _ := .ok EnumDecl.mk
  make
    |> also (checkName place es)
    |> also (checkField place es "cases" (fun here => checkMap here checkCase) .empty)
    |> also (checkSourceFile place es)

end

end PayloadTypes
