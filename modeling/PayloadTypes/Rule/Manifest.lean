import PayloadTypes.Rule.Basic
/-!
# Rules in manifests

In a manifest a rule is a text, a list, or a map with one of the keys
`enum`, `enum_value`, `in` and `rule`, of which the first that fits decides.
Choices, parameters and maps without any of these keys are kept as they are
shown, which takes that they can be.
-/

namespace PayloadTypes.Rule

/-- The parameters of a rule: a list, one value, or none. -/
def parametersOf : Option Value → List String
  | none => []
  | some v =>
    -- what counts as not there gives no parameters, zero and the empty text among them
    if !v.isTruthy then []
    else
      match v with
      | .list items => items.map scalarText
      | v => [scalarText v]

/-- The rule that a map is. -/
def ofEntries (es : List (Value × Value)) : Rule :=
  match Value.get? "enum" es, Value.get? "enum_value" es, Value.get? "in" es,
    Value.get? "rule" es with
  -- the first of these entries that has its type decides
  | some (.text t), _, _, _ => .enum t
  | _, some (.text t), _, _ => .enumValue t
  | _, _, some (.list items), _ => .choice (items.map scalarText)
  | _, _, _, some (.text name) => .call name (parametersOf (Value.get? "parameters" es))
  | _, _, _, _ => .unread (String.ofList (Value.map es).shown)

/-- What the rule of a map keeps of it can be shown. -/
def isShowableMap (es : List (Value × Value)) : Bool :=
  match Value.get? "enum" es, Value.get? "enum_value" es, Value.get? "in" es,
    Value.get? "rule" es with
  | some (.text _), _, _, _ => true
  | _, some (.text _), _, _ => true
  | _, _, some (.list items), _ => items.all (·.isShowable)
  | _, _, _, some (.text _) => (Value.get? "parameters" es).all (·.isShowable)
  | _, _, _, _ => (Value.map es).isShowable

mutual
/-- A value is a rule: what the rule keeps of it can be shown. -/
def isRule : Value → Bool
  | .list items => areRules items
  | .map es => isShowableMap es
  | _ => true
/-- All values are rules. -/
def areRules : List Value → Bool
  | [] => true
  | v :: vs => isRule v && areRules vs
end

mutual
/-- The rule that a value is. -/
def ofValue : Value → Rule
  | .text s => .text s
  | .list items => .list (ofValues items)
  | .map es => ofEntries es
  | v => .plain v
/-- The rules that values are. -/
def ofValues : List Value → List Rule
  | [] => []
  | v :: vs => ofValue v :: ofValues vs
end

end PayloadTypes.Rule
