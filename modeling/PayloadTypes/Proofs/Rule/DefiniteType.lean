import PayloadTypes.Proofs.Rule.Nullability
import PayloadTypes.Proofs.Text.Ascii
import PayloadTypes.Proofs.TypeText.OpenWords
/-!
# Definite types of rules

A type declared beside the rules takes the place of a vague type of rules, and
vague is what mentions an open word, be it in a literal. Without an enum or a
choice of its own a field has such a literal only as an array: it is the name
of the enum or a value of the choice that its items have. So a definite type of
rules stays exactly where no such name or value mentions an open word, or where
what is declared is vague as well (`baseType_eq_iff`).
-/

namespace PayloadTypes

open TypeText (IsDefinite MentionsOpenWord isVague openWords)
open Text (words)

/-! ## Words of choices -/

namespace Rule

variable {w : List Char} {v : String} {ts : List Rule}

theorem n_mem_of_mem_openWords : ∀ w ∈ openWords, 'n' ∈ w := by decide

/-- An open word is not written bare as a truth value: it has a letter that those have not. -/
theorem not_mem_words_of_lowerText (hw : w ∈ openWords)
    (h : Text.lowerText v = "true" ∨ Text.lowerText v = "false") : w ∉ words v.toList := by
  intro hmem
  obtain ⟨-, -, a, b, hv, -, -⟩ := Text.mem_runs_iff.mp hmem
  have hn : 'n' ∈ v.toList := by
    rw [hv]
    exact List.mem_append_right _ (List.mem_append_left _ (n_mem_of_mem_openWords w hw))
  have hlower : 'n' ∈ (Text.lowerText v).toList := by
    rw [Text.lowerText, String.toList_ofList]
    exact Text.mem_lower (by decide) hn
  rcases h with h | h
  · rw [h] at hlower
    exact absurd hlower (by decide)
  · rw [h] at hlower
    exact absurd hlower (by decide)

/-- **A value and its literal mention the same open words.** -/
theorem mem_words_literal_iff (hw : w ∈ openWords) :
    w ∈ words (literal v).toList ↔ w ∈ words v.toList := by
  rw [literal]
  split
  · next h =>
    refine iff_of_false (fun hmem => ?_) (not_mem_words_of_lowerText hw h)
    rcases h with h | h
    · rw [h] at hmem
      revert w
      decide
    · rw [h] at hmem
      revert w
      decide
  · split
    · rfl
    · rw [TypeText.words_quoteLiteral]

/-- What the type of the first enum or the first choice is written from: the name of the enum, or
the values of the choice. -/
def fixingValues (ts : List Rule) : List String :=
  match enumType? ts with
  | some name => [name]
  | none => ((ts.findSome? (parametersNamed? "in")).map choiceValues).getD []

/-- The type mentions the open words of what it is written from. -/
theorem mem_words_fixedType {t : String} (h : fixedType? ts = some t) (hw : w ∈ openWords) :
    w ∈ words t.toList ↔ ∃ v ∈ fixingValues ts, w ∈ words v.toList := by
  rw [fixedType?] at h
  rw [fixingValues]
  cases henum : enumType? ts with
  | some name =>
    obtain rfl : name = t := by simpa [henum] using h
    simp
  | none =>
    have hchoice : choiceType? ts = some t := by simpa [henum] using h
    obtain ⟨parameters, hfind, rfl⟩ := Option.map_eq_some_iff.mp hchoice
    simp only [hfind, Option.map_some, Option.getD_some, TypeText.mem_words_union, List.mem_map,
      exists_exists_and_eq_and, mem_words_literal_iff hw]

/-- Without an enum and a choice there is nothing to write from. -/
theorem fixingValues_eq_nil (h : fixedType? ts = none) : fixingValues ts = [] := by
  cases henum : enumType? ts with
  | some name => simp [fixedType?, henum] at h
  | none =>
    have hchoice : choiceType? ts = none := by simpa [fixedType?, henum] using h
    have hfind : ts.findSome? (parametersNamed? "in") = none := Option.map_eq_none_iff.mp hchoice
    rw [fixingValues, henum, hfind]
    rfl

end Rule

namespace FieldDefinition

variable {d : FieldDefinition} {companion : Option String} {t x : String} {items : List Rule}

/-! ## Which type is taken -/

/-- **The type of the rules stays exactly where it is not vague, or what is declared is.** -/
theorem baseType_eq_iff_isVague (hfixed : Rule.fixedType? d.tokens = none)
    (hinfer : Rule.inferType? d.tokens d.itemTokens = some t) :
    d.baseType companion = t ↔ isVague companion = true ∨ isVague (some t) = false := by
  have hbase : d.baseType companion =
      if isVague (some t) && !isVague companion then companion.getD t else t := by
    unfold baseType
    rw [hfixed, hinfer]
  rw [hbase]
  cases hc : isVague companion with
  | true => simp
  | false =>
    cases ht : isVague (some t) with
    | false => simp
    | true =>
      -- a declared type that is not vague is another one than a vague type
      cases companion with
      | none => cases hc
      | some c =>
        have hne : c ≠ t := by
          rintro rfl
          rw [ht] at hc
          cases hc
        simpa using hne

/-! ## What a type of rules mentions -/

/-- What the type of the items is written from, if an enum or a choice fixes it. -/
def itemValues (d : FieldDefinition) : List String :=
  (d.itemTokens.map Rule.fixingValues).getD []

theorem isVague_of_mem_nameTypes : ∀ t ∈ nameTypes ++ nameTypes.map TypeText.arrayOf,
    t ≠ "" ∧ (IsDefinite t → isVague (some t) = false) := by
  decide

/-- A definite type of names mentions no open word. -/
theorem not_mentionsOpenWord_of_mem (hmem : t ∈ nameTypes ++ nameTypes.map TypeText.arrayOf)
    (hdef : IsDefinite t) : ¬ MentionsOpenWord t := by
  obtain ⟨hne, hvague⟩ := isVague_of_mem_nameTypes t hmem
  rw [← TypeText.isVague_iff hne, hvague hdef]
  exact Bool.false_ne_true

theorem mentionsOpenWord_arrayOf :
    MentionsOpenWord (TypeText.arrayOf x) ↔ MentionsOpenWord x := by
  rw [TypeText.mentionsOpenWord_iff, TypeText.mentionsOpenWord_iff, TypeText.words_arrayOf]
  refine exists_congr fun w => and_congr_right fun hw => ?_
  have hne : w ≠ "Array".toList := by
    rintro rfl
    revert hw
    decide
  rw [List.mem_cons, or_iff_right hne]

/-- An array of what an enum or a choice fixes mentions the open words of its name or values. -/
theorem mentionsOpenWord_fixedType (h : Rule.fixedType? items = some x) :
    MentionsOpenWord (TypeText.arrayOf x) ↔
      ∃ v ∈ Rule.fixingValues items, MentionsOpenWord v := by
  rw [mentionsOpenWord_arrayOf]
  simp only [TypeText.mentionsOpenWord_iff]
  constructor
  · rintro ⟨w, hw, hmem⟩
    obtain ⟨v, hv, hmem⟩ := (Rule.mem_words_fixedType h hw).mp hmem
    exact ⟨v, hv, w, hw, hmem⟩
  · rintro ⟨v, hv, w, hw, hmem⟩
    exact ⟨w, hw, (Rule.mem_words_fixedType h hw).mpr ⟨v, hv, hmem⟩⟩

theorem itemTypeOr_of_fixedType? (h : Rule.fixedType? items = some x) (hne : x ≠ "") :
    Rule.itemTypeOr items = x := by
  have hitem : Rule.itemType? items = some x := by rw [Rule.itemType?, h]; rfl
  rw [Rule.itemTypeOr, hitem]
  split
  · next hnone => cases hnone
  · next hempty => exact absurd (Option.some.inj hempty) hne
  · next hsome => exact (Option.some.inj hsome).symm

/-- **A definite type of rules mentions the open words of its items**, those of the name of their
enum or of the values of their choice. -/
theorem mentionsOpenWord_iff_itemValues (hfixed : Rule.fixedType? d.tokens = none)
    (hinfer : Rule.inferType? d.tokens d.itemTokens = some t) (hdef : IsDefinite t) :
    MentionsOpenWord t ↔ ∃ v ∈ d.itemValues, MentionsOpenWord v := by
  cases hitems : d.itemTokens with
  | none =>
    have hmem : t ∈ nameTypes := by
      rw [hitems] at hinfer
      exact mem_nameTypes_of_itemType? hfixed hinfer
    -- A type that comes from names of rules mentions no open word, and no value is in it.
    refine iff_of_false (not_mentionsOpenWord_of_mem (List.mem_append_left _ hmem) hdef) ?_
    simp [itemValues, hitems]
  | some items =>
    have ht : TypeText.arrayOf (Rule.itemTypeOr items) = t := by
      rw [hitems, Rule.inferType?, hfixed] at hinfer
      exact Option.some.inj hinfer
    have hvalues : d.itemValues = Rule.fixingValues items := by simp [itemValues, hitems]
    subst ht
    rw [hvalues]
    cases hfix : Rule.fixedType? items with
    | none =>
      have hmem := List.mem_map_of_mem (f := TypeText.arrayOf) (itemTypeOr_mem_nameTypes hfix)
      refine iff_of_false (not_mentionsOpenWord_of_mem (List.mem_append_right _ hmem) hdef) ?_
      simp [Rule.fixingValues_eq_nil hfix]
    | some x =>
      by_cases hx : x = ""
      · -- items of an enum without a name are of unknown type, which is not definite
        exfalso
        have hitem : Rule.itemTypeOr items = TypeText.unknown := by
          rw [Rule.itemTypeOr, Rule.itemType?, hfix, hx]
          rfl
        rw [hitem] at hdef
        revert hdef
        decide
      · rw [itemTypeOr_of_fixedType? hfix hx]
        exact mentionsOpenWord_fixedType hfix

theorem ne_empty_of_inferType? (hfixed : Rule.fixedType? d.tokens = none)
    (hinfer : Rule.inferType? d.tokens d.itemTokens = some t) : t ≠ "" := by
  cases hitems : d.itemTokens with
  | none =>
    rw [hitems] at hinfer
    have hmem := mem_nameTypes_of_itemType? hfixed hinfer
    exact (isVague_of_mem_nameTypes t (List.mem_append_left _ hmem)).1
  | some items =>
    rw [hitems, Rule.inferType?, hfixed] at hinfer
    obtain rfl := Option.some.inj hinfer
    simp [TypeText.arrayOf]

/-! ## Definite types -/

/-- **A definite type of rules stays exactly where its items mention no open word**, or where what
is declared is missing or vague. -/
theorem baseType_eq_iff (hfixed : Rule.fixedType? d.tokens = none)
    (hinfer : Rule.inferType? d.tokens d.itemTokens = some t) (hdef : IsDefinite t) :
    d.baseType companion = t ↔
      isVague companion = true ∨ ∀ v ∈ d.itemValues, ¬ MentionsOpenWord v := by
  have hne := ne_empty_of_inferType? hfixed hinfer
  rw [baseType_eq_iff_isVague hfixed hinfer, ← Bool.not_eq_true, TypeText.isVague_iff hne,
    mentionsOpenWord_iff_itemValues hfixed hinfer hdef]
  simp only [not_exists, not_and]

/-- An array of remarks, one of which mentions an open word behind a quote. -/
def remarks : FieldDefinition :=
  { FieldDefinition.declared "remarks" (.text "array|max:3") with
    itemTokens := some (Rule.tokens (.choice ["company", "it's unknown"])) }

theorem baseType_remarks :
    Rule.fixedType? remarks.tokens = none ∧
      Rule.inferType? remarks.tokens remarks.itemTokens =
        some "Array<'company' | 'it\\'s unknown'>" ∧
      IsDefinite "Array<'company' | 'it\\'s unknown'>" ∧
      (remarks.baseType (some "string[]") = "Array<'company' | 'it\\'s unknown'>" ↔
        isVague (some "string[]") = true ∨ ∀ v ∈ remarks.itemValues, ¬ MentionsOpenWord v) :=
  have hfixed : Rule.fixedType? remarks.tokens = none := by decide
  have hinfer : Rule.inferType? remarks.tokens remarks.itemTokens =
      some "Array<'company' | 'it\\'s unknown'>" := by decide
  have hdef : IsDefinite "Array<'company' | 'it\\'s unknown'>" := by decide
  ⟨hfixed, hinfer, hdef, baseType_eq_iff hfixed hinfer hdef⟩

/-- An array of scopes, of which one is called by an open word. -/
def scopes : FieldDefinition :=
  { FieldDefinition.declared "scopes" (.text "array") with
    itemTokens := some (Rule.tokens (.text "in:any,all")) }

/-- The choice of its items mentions an open word in a literal, and what is declared beside the
rules takes its place. -/
theorem baseType_scopes :
    Rule.fixedType? scopes.tokens = none ∧
      Rule.inferType? scopes.tokens scopes.itemTokens = some "Array<'any' | 'all'>" ∧
      IsDefinite "Array<'any' | 'all'>" ∧
      scopes.baseType (some "Array<string>") = "Array<string>" := by
  refine ⟨?_, ?_, ?_, ?_⟩
  · decide
  · decide
  · decide
  · decide

end FieldDefinition

end PayloadTypes
