import PayloadTypes.Proofs.Source.Nesting
import PayloadTypes.Proofs.Text.Ascii
import PayloadTypes.Rule.Manifest
import PayloadTypes.Source.Scope
/-!
# Rule specs and how they are written

A rule spec is put together of texts, lists, enums, choices and calls, the
names in it being names of classes and of rules. It is written in a source as
literals, arrays and calls, and in a manifest as texts, lists and maps. What
is written in a source is an item of a list again (`isItem_written`), so specs
are written inside of one another to any depth.
-/

namespace PayloadTypes

open Source (isNameChar isQuiet isPlainStart depthChange quoted itemList IsItem Nested)
open Text (isBlank isIdentChar)

variable {c : Char} {s : List Char}

/-! ## Names -/

/-- The full name of a class. -/
structure ClassName where
  /-- The name. -/
  text : String
  /-- It is not empty. -/
  ne_nil : text.toList ≠ []
  /-- It is made of letters, digits, underscores and backslashes. -/
  isNameChar : ∀ c ∈ text.toList, isNameChar c = true
  /-- It does not start with a backslash. -/
  head_ne : '\\' ∉ text.toList.head?

/-- A lower case letter or an underscore, then those and digits. -/
def isLowerSnake : List Char → Bool
  | [] => false
  | c :: s => (c.isLower || c == '_') && s.all fun d => d.isLower || d.isDigit || d == '_'

/-- The name of a rule that has no form of its own. -/
structure RuleName where
  /-- The name. -/
  text : String
  /-- It is in lower snake case. -/
  isLowerSnake : isLowerSnake text.toList = true
  /-- It is not that of enums. -/
  ne_enum : text ≠ "enum"
  /-- It is not that of choices. -/
  ne_in : text ≠ "in"

/-- A namespace with the backslash behind it, or nothing. -/
structure Namespace where
  /-- The text in front of the name of a class. -/
  chars : List Char
  /-- It is made of letters, digits, underscores and backslashes. -/
  isNameChar : ∀ c ∈ chars, isNameChar c = true
  /-- It ends with a backslash. -/
  ends : ∀ c ∈ chars.getLast?, c = '\\'

/-- The namespaces that the classes of enum rules are written with. -/
structure EnumNamespaces where
  /-- That of the rule for the cases of an enum. -/
  enum : Namespace
  /-- That of the rule for the values of an enum. -/
  enumRule : Namespace

/-! ## Specs -/

/-- A rule spec that can be written in a source and in a manifest. -/
inductive RuleSpec where
  /-- A text. -/
  | text (s : String)
  /-- Several specs. -/
  | list (specs : List RuleSpec)
  /-- A case of an enum. -/
  | enum (type : ClassName)
  /-- A value of an enum. -/
  | enumValue (type : ClassName)
  /-- One of some values. -/
  | choice (values : List String)
  /-- A rule by its name. -/
  | call (name : RuleName) (parameters : List String)

namespace RuleSpec

mutual
/-- The rule that a spec is. -/
def rule : RuleSpec → Rule
  | .text s => .text s
  | .list specs => .list (rules specs)
  | .enum type => .enum type.text
  | .enumValue type => .enumValue type.text
  | .choice values => .choice values
  | .call name parameters => .call name.text parameters
/-- The rules that specs are. -/
def rules : List RuleSpec → List Rule
  | [] => []
  | spec :: specs => spec.rule :: rules specs
end

mutual
/-- The value that a spec is in a manifest. -/
def manifest : RuleSpec → Value
  | .text s => .text s
  | .list specs => .list (manifests specs)
  | .enum type => .map [(.text "enum", .text type.text)]
  | .enumValue type => .map [(.text "enum_value", .text type.text)]
  | .choice values => .map [(.text "in", .list (values.map Value.text))]
  | .call name parameters =>
    .map [(.text "rule", .text name.text), (.text "parameters", .list (parameters.map Value.text))]
/-- The values that specs are in a manifest. -/
def manifests : List RuleSpec → List Value
  | [] => []
  | spec :: specs => spec.manifest :: manifests specs
end

/-- A string in single quotes. -/
def stringText (s : String) : List Char := quoted '\'' s.toList

/-- An array of what is written already. -/
def arrayText (items : List (List Char)) : List Char := '[' :: (itemList items ++ [']'])

/-- What a construction starts with. -/
def newWord : List Char := ['n', 'e', 'w']

/-- What makes the name of a class a constant. -/
def classWord : List Char := [':', ':', 'c', 'l', 'a', 's', 's']

/-- What a call of the rule facade starts with. -/
def facadeWord : List Char := ['R', 'u', 'l', 'e', ':', ':']

/-- The construction of a rule for an enum, both names written in full. -/
def constructionText (name type : List Char) : List Char :=
  newWord ++ ' ' :: '\\' :: (name ++ '(' :: '\\' :: (type ++ (classWord ++ [')'])))

/-- A call of the rule facade. -/
def callText (name : List Char) (args : List (List Char)) : List Char :=
  facadeWord ++ (name ++ '(' :: (itemList args ++ [')']))

mutual
/-- The spec as it is written in a source. -/
def written (ns : EnumNamespaces) : RuleSpec → List Char
  | .text s => stringText s
  | .list specs => arrayText (writtenAll ns specs)
  | .enum type => constructionText (ns.enum.chars ++ "Enum".toList) type.text.toList
  | .enumValue type => constructionText (ns.enumRule.chars ++ "EnumRule".toList) type.text.toList
  | .choice values => callText "in".toList [arrayText (values.map stringText)]
  | .call name parameters => callText name.text.toList (parameters.map stringText)
/-- The specs as they are written in a source. -/
def writtenAll (ns : EnumNamespaces) : List RuleSpec → List (List Char)
  | [] => []
  | spec :: specs => spec.written ns :: writtenAll ns specs
end

/-- The marks of a spec are told apart from those inside of its texts. -/
example (ns : EnumNamespaces) : written ns (.list [.text "it's [a, \\]", .choice ["//"]]) =
    "['it\\'s [a, \\\\]', Rule::in(['//'])]".toList := rfl

/-! ## Specs in a manifest -/

theorem scalarText_text (v : String) : Rule.scalarText (.text v) = v := String.ofList_toList

theorem map_scalarText_text (values : List String) :
    (values.map Value.text).map Rule.scalarText = values := by
  simp [List.map_map, Function.comp_def, scalarText_text]

theorem parametersOf_text (values : List String) :
    Rule.parametersOf (some (.list (values.map Value.text))) = values := by
  cases values with
  | nil => rfl
  | cons v vs => exact map_scalarText_text (v :: vs)

mutual
/-- **The manifest form of a spec stands for its rule.** -/
theorem ofValue_manifest : (spec : RuleSpec) → Rule.ofValue spec.manifest = spec.rule
  | .text s => rfl
  | .list specs => by
    rw [manifest, Rule.ofValue, ofValues_manifests specs, rule]
  | .enum type => rfl
  | .enumValue type => rfl
  | .choice values => congrArg Rule.choice (map_scalarText_text values)
  | .call name parameters => congrArg (Rule.call name.text) (parametersOf_text parameters)
theorem ofValues_manifests : (specs : List RuleSpec) →
    Rule.ofValues (manifests specs) = rules specs
  | [] => rfl
  | spec :: specs => by
    rw [manifests, Rule.ofValues, ofValue_manifest spec, ofValues_manifests specs, rules]
end

/-! ## Specs in a source -/

/-- Marks that are no characters of a name. -/
def marks : List Char :=
  ['\'', '"', '/', '#', '(', ')', '[', ']', '\x7b', '\x7d', ',', ':', ' ']

theorem not_mem_marks (h : isNameChar c = true) : c ∉ marks := by
  have hmarks : (marks.all fun x => !isNameChar x) = true := by decide
  intro hc
  have := List.all_eq_true.mp hmarks c hc
  simp [h] at this

theorem isQuiet_of_isNameChar (h : isNameChar c = true) : isQuiet c = true := by
  have hc := not_mem_marks h
  simp only [marks, List.mem_cons, List.not_mem_nil, or_false, not_or] at hc
  simp [isQuiet, isPlainStart, depthChange, hc]

theorem isBlank_of_isNameChar (h : isNameChar c = true) : isBlank c = false := by
  simp only [isNameChar, Bool.or_eq_true, beq_iff_eq] at h
  rcases h with h | rfl
  · have hcode := Text.toNat_of_isIdentChar h
    exact Text.isBlank_eq_false (by omega)
  · decide

theorem nested_of_isNameChar {commas : Bool} (h : ∀ c ∈ s, isNameChar c = true) :
    Nested commas s :=
  .of_isQuiet fun c hc => isQuiet_of_isNameChar (h c hc)

theorem isItem_stringText (s : String) : IsItem (stringText s) where
  trimmed := Source.isQuote_single.isTrimmed_quoted _
  ne_nil := List.cons_ne_nil _ _
  nested := .quoted Source.isQuote_single _

theorem isItem_arrayText {items : List (List Char)} (h : ∀ p ∈ items, IsItem p) :
    IsItem (arrayText items) where
  trimmed := Text.isTrimmed_of_ends (by decide) (by decide)
  ne_nil := List.cons_ne_nil _ _
  nested := .bracketed (o := '[') (.inr (.inl rfl)) (Source.nested_itemList h)

theorem isItem_constructionText {name type : List Char} (hname : ∀ c ∈ name, isNameChar c = true)
    (htype : ∀ c ∈ type, isNameChar c = true) : IsItem (constructionText name type) where
  trimmed := by
    have htext : constructionText name type =
        'n' :: (['e', 'w', ' ', '\\'] ++ name ++ ['(', '\\'] ++ type ++ classWord ++ [')']) := by
      simp [constructionText, newWord]
    rw [htext]
    exact Text.isTrimmed_of_ends (by decide) (by decide)
  ne_nil := by simp [constructionText, newWord]
  nested := by
    have htext : constructionText name type = (['n', 'e', 'w', ' ', '\\'] ++ name) ++
        '(' :: ((['\\'] ++ type ++ classWord) ++ [')']) := by
      simp [constructionText, newWord]
    have hnew : Nested false ['n', 'e', 'w', ' ', '\\'] :=
      .of_isQuiet (List.all_eq_true.mp (by decide))
    have hfull : Nested true ['\\'] := .of_isQuiet (List.all_eq_true.mp (by decide))
    have hclass : Nested true classWord := .of_isQuiet (List.all_eq_true.mp (by decide))
    rw [htext]
    exact (hnew.append (nested_of_isNameChar hname)).append
      (.bracketed (.inl rfl) ((hfull.append (nested_of_isNameChar htype)).append hclass))

theorem isItem_callText {name : List Char} {args : List (List Char)}
    (hname : ∀ c ∈ name, isNameChar c = true) (hargs : ∀ p ∈ args, IsItem p) :
    IsItem (callText name args) where
  trimmed := by
    have htext : callText name args =
        'R' :: (['u', 'l', 'e', ':', ':'] ++ name ++ '(' :: itemList args ++ [')']) := by
      simp [callText, facadeWord]
    rw [htext]
    exact Text.isTrimmed_of_ends (by decide) (by decide)
  ne_nil := by simp [callText, facadeWord]
  nested := by
    have hrule : Nested false facadeWord := .of_isQuiet (List.all_eq_true.mp (by decide))
    exact hrule.append ((nested_of_isNameChar hname).append
      (.bracketed (.inl rfl) (Source.nested_itemList hargs)))

/-- The classes of enum rules have names. -/
theorem isNameChar_classes :
    (∀ c ∈ "Enum".toList, isNameChar c = true) ∧ ∀ c ∈ "EnumRule".toList, isNameChar c = true :=
  ⟨List.all_eq_true.mp (by decide), List.all_eq_true.mp (by decide)⟩

theorem isNameChar_append (q : Namespace) {name : List Char}
    (h : ∀ c ∈ name, isNameChar c = true) : ∀ c ∈ q.chars ++ name, isNameChar c = true :=
  List.forall_mem_append.mpr ⟨q.isNameChar, h⟩

/-- The first character of a name in lower snake case and the others. -/
theorem exists_of_isLowerSnake (h : isLowerSnake s = true) :
    ∃ c t, s = c :: t ∧ (c.isLower = true ∨ c = '_') ∧
      ∀ d ∈ t, d.isLower = true ∨ d.isDigit = true ∨ d = '_' := by
  cases s with
  | nil => cases h
  | cons c t =>
    simp only [isLowerSnake, Bool.and_eq_true, Bool.or_eq_true, beq_iff_eq, List.all_eq_true,
      or_assoc] at h
    exact ⟨c, t, rfl, h⟩

theorem isIdentChar_of_lower (h : c.isLower = true ∨ c.isDigit = true ∨ c = '_') :
    isIdentChar c = true := Text.isIdentChar_iff.mpr (.inr h)

theorem isNameChar_of_isLowerSnake (h : isLowerSnake s = true) : ∀ c ∈ s, isNameChar c = true := by
  obtain ⟨c, t, rfl, hc, ht⟩ := exists_of_isLowerSnake h
  have hident : ∀ d ∈ c :: t, isIdentChar d = true :=
    List.forall_mem_cons.mpr
      ⟨isIdentChar_of_lower (hc.imp_right .inr), fun d hd => isIdentChar_of_lower (ht d hd)⟩
  exact fun d hd => by simp [isNameChar, hident d hd]

theorem isItem_of_mem_map {values : List String} {p : List Char}
    (hp : p ∈ values.map stringText) : IsItem p := by
  obtain ⟨v, -, rfl⟩ := List.mem_map.mp hp
  exact isItem_stringText v

mutual
/-- **A spec in a source is an item of a list.** -/
theorem isItem_written (ns : EnumNamespaces) : (spec : RuleSpec) → IsItem (spec.written ns)
  | .text s => isItem_stringText s
  | .list specs => isItem_arrayText (isItem_of_mem_writtenAll ns specs)
  | .enum type => isItem_constructionText (isNameChar_append _ isNameChar_classes.1) type.isNameChar
  | .enumValue type =>
    isItem_constructionText (isNameChar_append _ isNameChar_classes.2) type.isNameChar
  | .choice values =>
    isItem_callText (List.all_eq_true.mp (by decide)) fun _ hp =>
      List.mem_singleton.mp hp ▸ isItem_arrayText fun _ => isItem_of_mem_map
  | .call name parameters =>
    isItem_callText (isNameChar_of_isLowerSnake name.isLowerSnake) fun _ => isItem_of_mem_map
theorem isItem_of_mem_writtenAll (ns : EnumNamespaces) : (specs : List RuleSpec) →
    ∀ p ∈ writtenAll ns specs, IsItem p
  | [] => fun _ hp => absurd hp List.not_mem_nil
  | spec :: specs => List.forall_mem_cons.mpr
      ⟨isItem_written ns spec, isItem_of_mem_writtenAll ns specs⟩
end

end RuleSpec

end PayloadTypes
