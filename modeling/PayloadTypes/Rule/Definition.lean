import PayloadTypes.Rule.Presence
/-!
# Field definitions

Rules are declared under the names of fields. A name that ends in `.*`
describes the items of the field in front of it and has no definition of
its own. A field known by its item rules alone comes behind the declared
ones, without tokens.
-/

namespace PayloadTypes

/-- Rules under names; a name need not be a text. -/
abbrev RuleEntries := List (Value × Rule)

/-- The rules of one field. -/
structure FieldDefinition where
  /-- The name of the field. -/
  name : String
  /-- Its tokens. -/
  tokens : List Rule
  /-- It must be there. -/
  required : Bool
  /-- It may be null. -/
  nullable : Bool
  /-- The tokens for its items, if there are item rules. -/
  itemTokens : Option (List Rule)

/-- The field whose items a name describes. -/
def itemParent? (name : String) : Option String :=
  (Text.before? ['.', '*'] name.toList).map String.ofList

/-- The definition of a declared field, its item rules left out. -/
def FieldDefinition.declared (name : String) (rule : Rule) : FieldDefinition :=
  let ts := rule.tokens
  ⟨name, ts, Rule.isRequired ts, Rule.isNullable ts, none⟩

/-- The definition of a field known by its item rules alone. -/
def FieldDefinition.ofItems (name : String) (items : List Rule) : FieldDefinition :=
  ⟨name, [], false, false, some items⟩

namespace RuleEntries

/-- The definitions of the names that describe fields. -/
def declared (rules : RuleEntries) : List FieldDefinition :=
  rules.filterMap fun e =>
    match e.1 with
    | .text name => if (itemParent? name).isSome then none else some (.declared name e.2)
    | _ => none

/-- The fields whose items are described, and the tokens for those. -/
def items (rules : RuleEntries) : List (String × List Rule) :=
  rules.filterMap fun e =>
    match e.1 with
    | .text name => (itemParent? name).map fun parent => (parent, e.2.tokens)
    | _ => none

/-- The definitions of the fields, in order. -/
def definitions (rules : RuleEntries) : List FieldDefinition :=
  let own := declared rules
  let items := items rules
  own.map (fun d => { d with itemTokens := items.lookup d.name }) ++
    (items.filter fun i => !(own.map (·.name)).contains i.1).map fun i => .ofItems i.1 i.2

end RuleEntries

end PayloadTypes
