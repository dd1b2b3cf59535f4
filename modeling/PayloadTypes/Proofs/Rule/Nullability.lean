import PayloadTypes.Proofs.Rule.Confirmation
import PayloadTypes.Proofs.TypeText.Members
import PayloadTypes.Rule.Field
import PayloadTypes.Source.DeclaredType
/-!
# Null in the types of fields

Null is taken off the type of a field that may not be null and put on the
type of one that may. Both work on the text of the type: null on its own is
not taken off, and behind brackets or quotes that are not closed the null that
is put on is no member. In every other case null is a member of the type of a
field exactly when its rules allow it (`hasNull_type_iff`).
-/

namespace PayloadTypes

open TypeText (hasNull members IsClosed applyNullability stripNull)

namespace FieldDefinition

variable {d : FieldDefinition} {companion : Option String} {taken : List String} {f : Field}

/-- Null can be put on the type of a field that may be null, or taken off that of one that may
not. -/
def TakesNull (nullable : Bool) (t : String) : Prop :=
  if nullable then hasNull t = true ∨ IsClosed t.toList else members t ≠ [TypeText.null]

instance (nullable : Bool) (t : String) : Decidable (TakesNull nullable t) :=
  inferInstanceAs (Decidable (if nullable then _ else _))

/-- Taking null off works by members, putting it on by the end of the text. -/
theorem hasNull_type_iff : (hasNull (d.type companion) = true ↔ d.nullable = true) ↔
    TakesNull d.nullable (d.baseType companion) := by
  rw [type]
  cases hn : d.nullable with
  | true =>
    simp only [if_true, iff_true, TakesNull]
    exact TypeText.hasNull_applyNullability_iff _
  | false =>
    have hstrip : applyNullability (stripNull (d.baseType companion)) false =
        stripNull (d.baseType companion) := rfl
    simp only [Bool.false_eq_true, if_false, iff_false, TakesNull, hstrip]
    exact not_congr (TypeText.hasNull_stripNull_iff _)

/-! ## Types of names -/

/-- The types that the names of rules give. -/
def nameTypes : List String :=
  TypeText.unknown :: TypeText.arrayOf TypeText.unknown :: Rule.groups.map Prod.snd

variable {ts items : List Rule} {t : String}

theorem mem_nameTypes_of_itemType? (hfixed : Rule.fixedType? ts = none)
    (h : Rule.itemType? ts = some t) : t ∈ nameTypes := by
  rw [Rule.itemType?, hfixed] at h
  change (if _ then _ else _) = some t at h
  split at h
  · obtain rfl := Option.some.inj h
    exact List.mem_cons_of_mem _ List.mem_cons_self
  · obtain ⟨g, hg, rfl⟩ := Option.map_eq_some_iff.mp h
    have hmem := List.mem_map_of_mem (f := Prod.snd) (List.mem_of_find?_eq_some hg)
    exact List.mem_cons_of_mem _ (List.mem_cons_of_mem _ hmem)

theorem itemTypeOr_mem_nameTypes (hfixed : Rule.fixedType? items = none) :
    Rule.itemTypeOr items ∈ nameTypes := by
  rw [Rule.itemTypeOr]
  split
  · exact List.mem_cons_self
  · exact List.mem_cons_self
  · next h => exact mem_nameTypes_of_itemType? hfixed h

/-- Without a declared type, names give a type of their own or an array of one. -/
theorem baseType_mem (hfixed : Rule.fixedType? d.tokens = none)
    (hitems : ∀ items ∈ d.itemTokens, Rule.fixedType? items = none) :
    d.baseType none ∈ nameTypes ++ nameTypes.map TypeText.arrayOf := by
  rw [List.mem_append, baseType, hfixed]
  cases hd : d.itemTokens with
  | none =>
    simp only [Rule.inferType?]
    cases ht : Rule.itemType? d.tokens with
    | none => exact .inl List.mem_cons_self
    | some t => exact .inl (by simpa [TypeText.isVague] using mem_nameTypes_of_itemType? hfixed ht)
  | some items =>
    -- item rules make an array of whatever the items are
    have hmem := itemTypeOr_mem_nameTypes (hitems items hd)
    have hinfer : Rule.inferType? d.tokens (some items) =
        some (TypeText.arrayOf (Rule.itemTypeOr items)) := by
      rw [Rule.inferType?, hfixed]
      rfl
    rw [hinfer]
    exact .inr (by simpa [TypeText.isVague] using List.mem_map_of_mem hmem)

theorem takesNull_of_mem_nameTypes : ∀ t ∈ nameTypes ++ nameTypes.map TypeText.arrayOf,
    ∀ nullable, TakesNull nullable t := by
  decide

/-- Of a field whose type is read off the names of its rules, null is a member exactly when they
allow it: it takes an enum, a choice or a declared type to go wrong. -/
theorem hasNull_type_of_names (hfixed : Rule.fixedType? d.tokens = none)
    (hitems : ∀ items ∈ d.itemTokens, Rule.fixedType? items = none) :
    hasNull (d.type none) = true ↔ d.nullable = true :=
  hasNull_type_iff.mpr (takesNull_of_mem_nameTypes _ (baseType_mem hfixed hitems) _)

/-! ## The emitted fields -/

/-- The field and its confirmation have one type. -/
theorem type_eq_of_mem_fields (hf : f ∈ d.fields companion taken) : f.type = d.type companion := by
  rw [fields_eq_cons, List.mem_cons, mem_confirmations] at hf
  obtain rfl | ⟨-, -, rfl⟩ := hf <;> rfl

/-- **Null is a member of the type of a field exactly when its rules allow it**, for every text
that takes null and no other. -/
theorem hasNull_fields_iff (hf : f ∈ d.fields companion taken) :
    (hasNull f.type = true ↔ d.nullable = true) ↔ TakesNull d.nullable (d.baseType companion) := by
  rw [type_eq_of_mem_fields hf]
  exact hasNull_type_iff

/-- A field that may be null and is to be confirmed, a choice of two texts. -/
def nullableChoice : FieldDefinition :=
  .declared "state" (.list [.text "nullable", .text "confirmed", .choice ["on|off", "null"]])

theorem hasNull_fields_nullableChoice :
    nullableChoice.confirmation none ∈ nullableChoice.fields none [] ∧
      ((hasNull (nullableChoice.confirmation none).type = true ↔ nullableChoice.nullable = true) ↔
        TakesNull nullableChoice.nullable (nullableChoice.baseType none)) :=
  have hconf : Rule.isConfirmed nullableChoice.tokens = true := by decide
  have hmem : nullableChoice.confirmation none ∈ nullableChoice.fields none [] := by
    rw [fields_eq_cons, List.mem_cons, mem_confirmations]
    exact .inr ⟨hconf, List.not_mem_nil, rfl⟩
  ⟨hmem, hasNull_fields_iff hmem⟩

/-- A field that may not be null, of which nothing is known but that it is declared null. -/
theorem hasNull_fields_of_lone_null :
    (Source.convert "null").type = "null" ∧
      (FieldDefinition.declared "deleted_at" (.text "required")).nullable = false ∧
      RuleEntries.fields [(.text "deleted_at", .text "required")]
        (OrderedMap.empty.insert "deleted_at" "null") = [⟨"deleted_at", "null", false⟩] ∧
      hasNull "null" = true := by
  refine ⟨?_, ?_, ?_, ?_⟩
  · rw [Source.convert]
    decide
  · decide
  · decide
  · decide

end FieldDefinition

end PayloadTypes
