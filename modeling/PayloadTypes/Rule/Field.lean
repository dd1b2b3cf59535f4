import PayloadTypes.Data.OrderedMap
import PayloadTypes.Field
import PayloadTypes.Rule.Definition
import PayloadTypes.Rule.Inference
import PayloadTypes.TypeText.Reference
/-!
# Fields of rules

A field has the type of its rules, unless that is missing or vague and the
type declared beside the rules is not. It is null only where its rules allow
that. A field to be confirmed is followed by its confirmation, unless that
name is declared.
-/

namespace PayloadTypes

namespace FieldDefinition

/-- The type of a field before null is taken off or put on. -/
def baseType (d : FieldDefinition) (companion : Option String) : String :=
  match Rule.fixedType? d.tokens with
  | some t => t
  | none =>
    match Rule.inferType? d.tokens d.itemTokens with
    | none =>
      -- what the companion says counts where the rules say nothing, or nothing definite
      match companion with
      | none | some "" => TypeText.unknown
      | some c => c
    | some t =>
      if TypeText.isVague (some t) && !TypeText.isVague companion then companion.getD t else t

/-- The type of a field. -/
def type (d : FieldDefinition) (companion : Option String) : String :=
  let t := d.baseType companion
  TypeText.applyNullability (if d.nullable then t else TypeText.stripNull t) d.nullable

/-- The field itself. -/
def field (d : FieldDefinition) (companion : Option String) : Field :=
  ⟨d.name, d.type companion, Rule.isOptional d.required d.tokens⟩

/-- The name of the confirmation of a field. -/
def confirmationName (d : FieldDefinition) : String := d.name ++ "_confirmation"

/-- The field and, if it has to be confirmed under a name not taken, its confirmation. -/
def fields (d : FieldDefinition) (companion : Option String) (taken : List String) :
    List Field :=
  let f := d.field companion
  if Rule.isConfirmed d.tokens && !taken.contains d.confirmationName then
    [f, { f with name := d.confirmationName }]
  else [f]

/-- The enums that the type of a field was read off. -/
def references (d : FieldDefinition) : List String := Rule.references d.tokens d.itemTokens

end FieldDefinition

namespace RuleEntries

/-- The fields of definitions, `emitted` being the names of fields in front of them. -/
def fieldsFrom (names : List String) (companions : OrderedMap String) :
    (emitted : List String) → List FieldDefinition → List Field
  | _, [] => []
  | emitted, d :: ds =>
    let fs := d.fields (companions.get? d.name) (emitted ++ names)
    fs ++ fieldsFrom names companions (emitted ++ fs.map (·.name)) ds

/-- The fields of rules, given the types declared beside them. -/
def fields (rules : RuleEntries) (companions : OrderedMap String) : List Field :=
  let ds := rules.definitions
  fieldsFrom (ds.map (·.name)) companions [] ds

/-- The enums that the types of the fields were read off. -/
def symbols (rules : RuleEntries) : Symbols :=
  Symbols.ofList (rules.definitions.flatMap (·.references))

end RuleEntries

end PayloadTypes
