import Mathlib.Data.List.Forall2
import PayloadTypes.Generation.Generate
import PayloadTypes.Proofs.Source.TypeOutline
/-!
# Optional fields of data objects

Where null is left to the fields, a property makes an optional field just if its
declared type shows that it takes null. What shows null admits it, but null may
be admitted without being shown: in parentheses, by a question mark on a member,
by `void`, or in front of an intersection. Those are the types, of all that are
whole, whose null is lost (`optional_fields_iff`).
-/

namespace PayloadTypes

open Source (ShowsNull TypeTerm declaredOutline declaredType docLayout)
open TypeText (hasNull)

/-- **The field of a property is optional** just if its type shows null, and so it is nullable just
where it is optional if the type shows the null that it admits. -/
theorem propertyField_optional_iff {s : Settings} (hs : s.nullAsOptional = true)
    (name declared : String) :
    ((propertyField s name declared).optional = true ↔ ShowsNull declared) ∧
      ((declaredOutline declared).IsWhole →
        (((propertyField s name declared).optional = true ↔
            hasNull (declaredType false (some declared)) = true) ↔
          ((declaredOutline declared).admitsNull = true → ShowsNull declared))) := by
  have hoptional : (propertyField s name declared).optional = true ↔ ShowsNull declared := by
    rw [← Source.allowsNull_iff, propertyField, hs, Bool.true_and]
  refine ⟨hoptional, fun hwhole => ?_⟩
  obtain ⟨hnull, hshows⟩ := Source.hasNull_declaredType_iff hwhole
  rw [hoptional, hnull]
  exact ⟨fun h => h.mpr, fun h => ⟨hshows, h⟩⟩

/-- **Where null is left to the fields**, each property of a data object makes a field of its name,
which is optional just if the declared type shows null. For a whole type this is just where null is
a member of its text, unless the type admits null without showing it. -/
theorem optional_fields_iff (d : DataDecl) (s : Settings) (hs : s.nullAsOptional = true) :
    List.Forall₂ (fun (p : String × String) (f : Field) =>
        f.name = p.1 ∧ (f.optional = true ↔ ShowsNull p.2) ∧
          ((declaredOutline p.2).IsWhole →
            ((f.optional = true ↔ hasNull (declaredType false (some p.2)) = true) ↔
              ((declaredOutline p.2).admitsNull = true → ShowsNull p.2))))
      d.properties.entries (d.type s).fields := by
  have hfields : (d.type s).fields =
      d.properties.entries.map fun e => propertyField s e.1 e.2 := rfl
  rw [hfields, List.forall₂_map_right_iff, List.forall₂_same]
  exact fun e _ => ⟨rfl, propertyField_optional_iff hs e.1 e.2⟩

/-! ## Two properties -/

/-- Settings that leave null to the fields. -/
def optionalSettings : Settings := { Settings.standard with nullAsOptional := true }

/-- A data object with one property. -/
def ageData (declared : String) : DataDecl where
  name := "UserData"
  properties := ⟨[("age", declared)], List.nodup_singleton _⟩
  sourceFile := none

/-- An integer. -/
def intKeyword : Source.Keyword where
  word := "int"
  type := "number"
  mem := by decide
  text := "int".toList
  lower := by decide

/-- Null. -/
def nullKeyword : Source.Keyword where
  word := "null"
  type := TypeText.null
  mem := by decide
  text := "null".toList
  lower := by decide

/-- An integer or null, by a question mark. -/
def markedType : TypeTerm := .nullable (.keyword intKeyword)

/-- An integer or null, in parentheses. -/
def enclosedType : TypeTerm := .grouped (.union (.keyword intKeyword) (.keyword nullKeyword) [])

/-- With a question mark the field is optional just where null is a member. -/
theorem optional_fields_marked : optionalSettings.nullAsOptional = true ∧
    ∃ f, ((ageData "?int").type optionalSettings).fields = [f] ∧
      (f.optional = true ↔ hasNull (declaredType false (some "?int")) = true) := by
  have htext : String.ofList (markedType.text docLayout) = "?int" := by decide
  have hwhole := TypeTerm.isWhole_declaredOutline docLayout markedType
  rw [htext] at hwhole
  have hfields := optional_fields_iff (ageData "?int") optionalSettings rfl
  obtain ⟨-, -, hexact⟩ := (List.forall₂_cons.mp hfields).1
  exact ⟨rfl, _, rfl, (hexact hwhole).mpr fun _ => .inl rfl⟩

/-- In parentheses null is lost: it is taken off the type, and the field is not optional. -/
theorem not_optional_enclosed :
    ((ageData "(int|null)").type optionalSettings).fields = [⟨"age", "number", false⟩] ∧
      hasNull (declaredType false (some "(int|null)")) = true := by
  have htext : String.ofList (enclosedType.text docLayout) = "(int|null)" := by decide
  have hconvert : Source.convertDeclared (some "(int|null)") = ⟨"number | null", []⟩ := by
    rw [← htext, Source.convertDeclared_of_isUnit (enclosedType.isUnit_text docLayout),
      enclosedType.convert_text docLayout (by decide)]
    decide
  have hallows : Source.allowsNull (some "(int|null)") = false := by decide
  constructor
  · have hfields : ((ageData "(int|null)").type optionalSettings).fields =
        [propertyField optionalSettings "age" "(int|null)"] := rfl
    rw [hfields, propertyField, declaredType, hconvert, hallows]
    decide
  · rw [declaredType, hconvert]
    decide

end PayloadTypes
