import Mathlib.Data.List.Basic
import PayloadTypes.Rule.Inference
import PayloadTypes.Rule.Presence
/-!
# The order of tokens

What the tokens of a field say depends on their names, as a set, and on the
tokens that can fix a type, as a row (`SameRules`). So tokens that fix nothing
may change places, be repeated, change their parameters or be written in
capitals, and so may those of the items: presence, type and symbols stay what
they are (`sameVerdicts`).
-/

namespace PayloadTypes.Rule

variable {ts us : List Rule} {items items' : Option (List Rule)} {token : Rule}

/-! ## Tokens that fix a type -/

/-- The token may fix a type: it is an object that names a type, or an enum or a choice with
parameters. -/
def isFixing (token : Rule) : Bool :=
  token.isConstraint || (parametersNamed? "enum" token).isSome ||
    (parametersNamed? "in" token).isSome

/-- The tokens have the same names, and the same ones of them may fix a type, in the same order. -/
structure SameRules (ts us : List Rule) : Prop where
  /-- A name of the one is a name of the other. -/
  mem_names : ∀ n, n ∈ names ts ↔ n ∈ names us
  /-- The tokens that may fix a type are the same row. -/
  filter_isFixing : ts.filter isFixing = us.filter isFixing

theorem mem_names_iff {n : String} : n ∈ names ts ↔ ∃ token ∈ ts, name? token = some n := by
  rw [names, List.mem_eraseDups, List.mem_filterMap]

/-- Tokens may change places as long as those that may fix a type keep their order. -/
theorem SameRules.of_perm (hperm : ts.Perm us) (h : ts.filter isFixing = us.filter isFixing) :
    SameRules ts us :=
  ⟨fun _ => by simp only [mem_names_iff, hperm.mem_iff], h⟩

/-- A token that fixes nothing may be repeated. -/
theorem SameRules.cons_self (hmem : token ∈ ts) (h : isFixing token = false) :
    SameRules (token :: ts) ts := by
  refine ⟨fun n => ?_, List.filter_cons_of_neg (by simp [h])⟩
  simp only [mem_names_iff, List.mem_cons, exists_eq_or_imp, or_iff_right_iff_imp]
  exact fun hn => ⟨token, hmem, hn⟩

theorem isFixing_of_enumReference? (h : (enumReference? token).isSome = true) :
    isFixing token = true := by
  have hwritten : (writtenReference? token).isSome = true := by
    by_contra hnone
    rw [Bool.not_eq_true, Option.isSome_eq_false_iff, Option.isNone_iff_eq_none] at hnone
    simp [enumReference?, hnone] at h
  cases token with
  | text s =>
    rw [writtenReference?, Option.isSome_map] at hwritten
    simp [isFixing, hwritten]
  | enum | enumValue | constraint | broken => rfl
  | list | choice | call | unread | plain => simp [writtenReference?, typeReference?] at hwritten

theorem isFixing_of_choice (h : (parametersNamed? "in" token).isSome = true) :
    isFixing token = true := by
  simp [isFixing, h]

/-- The first hit is among those that can be one. -/
theorem findSome?_filter {α β : Type} {f : α → Option β} {p : α → Bool}
    (h : ∀ x, (f x).isSome = true → p x = true) (xs : List α) :
    (xs.filter p).findSome? f = xs.findSome? f := by
  induction xs with
  | nil => rfl
  | cons x xs ih =>
    cases hx : p x with
    | true => rw [List.filter_cons_of_pos hx, List.findSome?_cons, List.findSome?_cons, ih]
    | false =>
      have hnone : f x = none := by
        by_contra hne
        rw [h x (Option.isSome_iff_ne_none.mpr hne)] at hx
        cases hx
      rw [List.filter_cons_of_neg (by simp [hx]), List.findSome?_cons_of_isNone (by simp [hnone]),
        ih]

namespace SameRules

/-- **The first enum is the same.** -/
theorem firstEnum?_eq (h : SameRules ts us) : firstEnum? ts = firstEnum? us := by
  have hfilter := findSome?_filter (f := enumReference?) fun _ => isFixing_of_enumReference?
  rw [firstEnum?, ← hfilter ts, h.filter_isFixing, hfilter us, firstEnum?]

/-- **The first choice is the same.** -/
theorem choiceType?_eq (h : SameRules ts us) : choiceType? ts = choiceType? us := by
  have hfilter := findSome?_filter (f := parametersNamed? "in") fun _ => isFixing_of_choice
  rw [choiceType?, ← hfilter ts, h.filter_isFixing, hfilter us, choiceType?]

theorem fixedType?_eq (h : SameRules ts us) : fixedType? ts = fixedType? us := by
  rw [fixedType?, fixedType?, enumType?, enumType?, h.firstEnum?_eq, h.choiceType?_eq]

/-! ## Names -/

theorem contains_names (h : SameRules ts us) (n : String) :
    (names ts).contains n = (names us).contains n := by
  rw [Bool.eq_iff_iff, List.contains_iff_mem, List.contains_iff_mem]
  exact h.mem_names n

theorem hasName_eq (h : SameRules ts us) (group : List String) :
    hasName group ts = hasName group us := by
  rw [hasName, hasName, Bool.eq_iff_iff, List.any_eq_true, List.any_eq_true]
  exact exists_congr fun n => and_congr_left fun _ => h.mem_names n

theorem groupType?_eq (h : SameRules ts us) : groupType? ts = groupType? us := by
  simp only [groupType?, h.hasName_eq]

theorem isRequired_eq (h : SameRules ts us) : isRequired ts = isRequired us := by
  simp only [isRequired, h.contains_names]

theorem isNullable_eq (h : SameRules ts us) : isNullable ts = isNullable us :=
  h.contains_names "nullable"

theorem isConfirmed_eq (h : SameRules ts us) : isConfirmed ts = isConfirmed us :=
  h.contains_names "confirmed"

theorem isOptional_eq (h : SameRules ts us) (required : Bool) :
    isOptional required ts = isOptional required us := by
  rw [isOptional, isOptional, h.contains_names]

theorem presence_eq (h : SameRules ts us) : presence ts = presence us := by
  rw [presence, presence, h.isRequired_eq, h.isNullable_eq]

/-! ## Types and symbols -/

theorem itemType?_eq (h : SameRules ts us) : itemType? ts = itemType? us := by
  rw [itemType?, itemType?, h.fixedType?_eq, h.hasName_eq, h.groupType?_eq]

theorem itemTypeOr_eq (h : SameRules ts us) : itemTypeOr ts = itemTypeOr us := by
  rw [itemTypeOr, itemTypeOr, h.itemType?_eq]

/-- **The type is the same**, the tokens of the items being read like the field's own. -/
theorem inferType?_eq (h : SameRules ts us) (hitems : Option.Rel SameRules items items') :
    inferType? ts items = inferType? us items' := by
  cases hitems with
  | none => exact h.itemType?_eq
  | some hi => rw [inferType?, inferType?, h.fixedType?_eq, hi.itemTypeOr_eq]

/-- **The references are the same.** -/
theorem references_eq (h : SameRules ts us) (hitems : Option.Rel SameRules items items') :
    references ts items = references us items' := by
  have hbind : items.bind firstEnum? = items'.bind firstEnum? := by
    cases hitems with
    | none => rfl
    | some hi => exact hi.firstEnum?_eq
  rw [references, references, h.firstEnum?_eq, h.choiceType?_eq, hbind]

end SameRules

/-- A field may be left out exactly when it need not be there: `sometimes` counts in both. -/
theorem optional_presence (ts : List Rule) :
    (presence ts).optional = isOptional (isRequired ts) ts := by
  rw [Presence.optional, presence, isOptional, isRequired]
  cases (names ts).contains "sometimes" <;> simp

/-! ## All verdicts -/

/-- Two rows of tokens, each with tokens of items, say the same. -/
structure SameVerdicts (ts us : List Rule) (items items' : Option (List Rule)) : Prop where
  /-- Whether the field must be there and may be null. -/
  presence : presence ts = presence us
  /-- Whether it may be left out. -/
  optional : ∀ required, isOptional required ts = isOptional required us
  /-- Whether it is to be confirmed. -/
  confirmed : isConfirmed ts = isConfirmed us
  /-- Its type. -/
  type : inferType? ts items = inferType? us items'
  /-- The symbols that are recorded, whatever is known of them before. -/
  symbols : ∀ s : Symbols, s.addAll (references ts items) = s.addAll (references us items')
  /-- The two readings of what may be left out agree. -/
  optional_presence : (Rule.presence ts).optional = isOptional (isRequired ts) ts

/-- **Order and repetition of tokens do not matter** beyond the first one that fixes a type. -/
theorem sameVerdicts (h : SameRules ts us) (hitems : Option.Rel SameRules items items') :
    SameVerdicts ts us items items' where
  presence := h.presence_eq
  optional := h.isOptional_eq
  confirmed := h.isConfirmed_eq
  type := h.inferType?_eq hitems
  symbols := fun s => by rw [h.references_eq hitems]
  optional_presence := Rule.optional_presence ts

/-- Tokens of a field that is checked sometimes, two choices among them. -/
def plainTokens : List Rule :=
  [.text "sometimes", .text "required", .text "in:b,a", .text "array", .text "in:c", .text "max:5"]

/-- The same in another order, with capitals, repetitions and another bound. -/
def shuffledTokens : List Rule :=
  [.text "MAX:9", .text "Array", .text "in:b,a", .text "required", .text "Sometimes",
    .text "in:c", .text "required"]

/-- Tokens of items, an enum and a rule that was not understood. -/
def plainItems : List Rule := [.unread "closure", .text "nullable", .enum "App\\Enums\\Role"]

/-- The same in another order, what was not understood left out. -/
def shuffledItems : List Rule :=
  [.enum "App\\Enums\\Role", .text "nullable", .text " NULLABLE "]

theorem sameVerdicts_shuffledTokens : SameRules plainTokens shuffledTokens ∧
    Option.Rel SameRules (some plainItems) (some shuffledItems) ∧
      SameVerdicts plainTokens shuffledTokens (some plainItems) (some shuffledItems) :=
  have hnames : names plainTokens ⊆ names shuffledTokens := by decide
  have hnames' : names shuffledTokens ⊆ names plainTokens := by decide
  have hitems : names plainItems ⊆ names shuffledItems := by decide
  have hitems' : names shuffledItems ⊆ names plainItems := by decide
  have htokens : SameRules plainTokens shuffledTokens :=
    ⟨fun _ => ⟨(hnames ·), (hnames' ·)⟩, rfl⟩
  have hrel : Option.Rel SameRules (some plainItems) (some shuffledItems) :=
    .some ⟨fun _ => ⟨(hitems ·), (hitems' ·)⟩, rfl⟩
  ⟨htokens, hrel, sameVerdicts htokens hrel⟩

end PayloadTypes.Rule
