import Mathlib.Data.List.Nodup
import PayloadTypes.Proofs.Text.Ascii
import PayloadTypes.Proofs.Text.Escape
import PayloadTypes.Proofs.TypeText.Members
import PayloadTypes.Proofs.TypeText.Nested
import PayloadTypes.Source.DeclaredType
/-!
# Declared types as terms

A declared type is a term over keywords and names of classes. It is written
with parentheses where a nullable type or a union is an operand, and it is
translated to a row of members. Every operand is a unit of its text
(`isUnit_operandText`), so no separator cuts it, and every member is a unit of
the translation (`isUnit_of_mem_members`).
-/

namespace PayloadTypes.Source

open Text (AllBlank isBlank isIdentChar)
open TypeText (IsNested IsPart IsPiece IsUnit arrayOf isBrackets_angle isBrackets_round
  isBrackets_square isInert isNested_intercalate isNested_of_isInert isUnit_intercalate
  isUnit_of_isWordChar isWordChar isWordChar_iff null)

variable {c : Char} {s : List Char} {seps : List Char} {args : List (List Char)} {ms : List String}

/-! ## Words -/

/-- A keyword in any case of its letters. -/
structure Keyword where
  /-- The keyword in lower case. -/
  word : String
  /-- The type that it stands for. -/
  type : String
  /-- The table has both. -/
  mem : (word, type) ∈ keywordTypes
  /-- The keyword as it is written. -/
  text : List Char
  /-- Only the case of its letters may differ. -/
  lower : text.map Char.toLower = word.toList

/-- A character in the name of a class. -/
def isClassChar (c : Char) : Bool :=
  isIdentChar c || c == '\\' || (decide (128 ≤ c.toNat) && !isBlank c)

/-- A reference to a class by its name, with or without a namespace. -/
structure ClassRef where
  /-- The name. -/
  text : List Char
  /-- It is made of letters, digits, underscores and backslashes, in any script. -/
  isClassChar : ∀ c ∈ text, isClassChar c = true
  /-- It is not empty. -/
  ne_nil : text ≠ []
  /-- It does not end with a backslash. -/
  last_ne : '\\' ∉ text.getLast?
  /-- It is no keyword. -/
  not_keyword : keywordTypes.lookup (String.ofList (Text.lower text)) = none

namespace ClassRef

/-- The last segment of the name. -/
def segment (r : ClassRef) : String := String.ofList (Text.lastPiece '\\' r.text)

/-- The name without the backslashes in front of it. -/
def fullName (r : ClassRef) : String := String.ofList (r.text.dropWhile (· == '\\'))

/-- The class holds a date. -/
def isDate (r : ClassRef) : Bool := dateClasses.contains r.segment

/-- The type of the class. -/
def type (r : ClassRef) : String := if r.isDate then "string" else r.segment

end ClassRef

/-- The name of a generic type, in the characters that sources name classes with, and dashes. -/
structure GenericName where
  /-- The name. -/
  text : List Char
  /-- It is not empty. -/
  ne_nil : text ≠ []
  /-- It is made of letters, digits, underscores, backslashes and dashes. -/
  isGenericChar : ∀ c ∈ text, isGenericChar c = true

/-- The last segment of the name is that of a list, in any case. -/
def GenericName.isList (n : GenericName) : Bool :=
  listNames.contains (String.ofList (Text.lower (Text.lastPiece '\\' n.text)))

/-- The name of a list. -/
structure ListName extends GenericName where
  /-- It is one. -/
  isList : toGenericName.isList = true

/-- The name of a generic type that is no list. -/
structure OtherName extends GenericName where
  /-- It is none. -/
  isList : toGenericName.isList = false

/-! ## Terms -/

/-- A declared type. -/
inductive TypeTerm where
  /-- A keyword. -/
  | keyword (k : Keyword)
  /-- A class. -/
  | named (r : ClassRef)
  /-- A type in parentheses. -/
  | grouped (t : TypeTerm)
  /-- An array of a type. -/
  | array (t : TypeTerm)
  /-- A list of values. -/
  | list (name : ListName) (value : TypeTerm)
  /-- A list of values by keys. -/
  | map (name : ListName) (key value : TypeTerm)
  /-- Any other generic type. -/
  | generic (name : OtherName) (args : List TypeTerm)
  /-- A type or null. -/
  | nullable (t : TypeTerm)
  /-- A union of two or more types. -/
  | union (first second : TypeTerm) (more : List TypeTerm)

/-- Blanks on both sides of a separator. -/
structure Spacing where
  /-- Those in front of it. -/
  before : List Char
  /-- Those behind it. -/
  after : List Char
  /-- They are blank. -/
  allBlank : AllBlank before ∧ AllBlank after

/-- A separator with blanks around it. -/
def Spacing.around (g : Spacing) (sep : Char) : List Char := g.before ++ sep :: g.after

/-- How the parts of types are set apart. -/
structure Layout where
  /-- The blanks around the bars of a union. -/
  bar : Spacing
  /-- The blanks around the commas between arguments. -/
  comma : Spacing

/-- A text in parentheses. -/
def inParens (s : List Char) : List Char := '(' :: (s ++ [')'])

/-- The text of an operand: an open one is put in parentheses. -/
def operandText (isOpen : Bool) (s : List Char) : List Char := if isOpen then inParens s else s

/-- A generic type with arguments that are written already. -/
def genericText (l : Layout) (name : List Char) (args : List (List Char)) : List Char :=
  name ++ '<' :: ((l.comma.around ',').intercalate args ++ ['>'])

/-- The text of a row of members. -/
def barred (ms : List String) : String := " | ".intercalate ms

namespace TypeTerm

/-- A nullable type or a union, which stands in parentheses as an operand. -/
def isOpen : TypeTerm → Bool
  | .nullable _ | .union .. => true
  | _ => false

/-- A keyword whose keys make a list a record. -/
def isTextKey : TypeTerm → Bool
  | .keyword k => textKeys.contains k.word
  | _ => false

mutual
/-- A type as it is written. -/
def text (l : Layout) : TypeTerm → List Char
  | .keyword k => k.text
  | .named r => r.text
  | .grouped t => inParens (t.text l)
  | .array t => operandText t.isOpen (t.text l) ++ ['[', ']']
  | .list name value => genericText l name.text [value.text l]
  | .map name key value => genericText l name.text [key.text l, value.text l]
  | .generic name args => genericText l name.text (texts l args)
  | .nullable t => '?' :: operandText t.isOpen (t.text l)
  | .union first second more =>
    (l.bar.around '|').intercalate (operandText first.isOpen (first.text l) ::
      operandText second.isOpen (second.text l) :: operandTexts l more)
/-- Types as they are written. -/
def texts (l : Layout) : List TypeTerm → List (List Char)
  | [] => []
  | t :: ts => t.text l :: texts l ts
/-- Types as they are written as operands. -/
def operandTexts (l : Layout) : List TypeTerm → List (List Char)
  | [] => []
  | t :: ts => operandText t.isOpen (t.text l) :: operandTexts l ts
end

mutual
/-- The members that a type is translated to. -/
def members : TypeTerm → List String
  | .keyword k => [k.type]
  | .named r => [r.type]
  | .grouped t => t.members
  | .array t => [arrayOf (barred t.members)]
  | .list _ value => [arrayOf (barred value.members)]
  | .map _ key value =>
    [if key.isTextKey then "Record<string, " ++ barred value.members ++ ">"
      else arrayOf (barred value.members)]
  | .generic _ _ => [TypeText.unknown]
  | .nullable t => t.members ++ [null]
  | .union first second more => (first.members ++ (second.members ++ membersAll more)).eraseDups
/-- The members of types, one after the other. -/
def membersAll : List TypeTerm → List String
  | [] => []
  | t :: ts => t.members ++ membersAll ts
end

/-- The translation of a type. -/
def type (t : TypeTerm) : String := barred t.members

mutual
/-- The classes at the places that are translated. -/
def classes : TypeTerm → List ClassRef
  | .keyword _ | .generic _ _ => []
  | .named r => [r]
  | .grouped t | .array t | .nullable t | .list _ t | .map _ _ t => t.classes
  | .union first second more => first.classes ++ (second.classes ++ classesAll more)
/-- The classes of types, one after the other. -/
def classesAll : List TypeTerm → List ClassRef
  | [] => []
  | t :: ts => t.classes ++ classesAll ts
end

mutual
/-- At the places that are translated, no type that is made nullable has null for a member. -/
def nullsApart : TypeTerm → Bool
  | .keyword _ | .named _ | .generic _ _ => true
  | .grouped t | .array t | .list _ t | .map _ _ t => t.nullsApart
  | .nullable t => !t.members.contains null && t.nullsApart
  | .union first second more => first.nullsApart && (second.nullsApart && nullsApartAll more)
/-- The same of several types. -/
def nullsApartAll : List TypeTerm → Bool
  | [] => true
  | t :: ts => t.nullsApart && nullsApartAll ts
end

end TypeTerm

/-! ## Characters of words -/

/-- A character in a keyword or in the name of a class or generic type. -/
def isTermChar (c : Char) : Bool := isClassChar c || c == '-'

/-- Marks that stand in no word. -/
def typeMarks : List Char :=
  ['\'', '"', '<', '(', '[', '\x7b', '>', ')', ']', '\x7d', '|', '&', ',', '?']

/-- What separates the parts of declared types. -/
def separators : List Char := ['|', '&', ',']

theorem not_mem_typeMarks (h : isTermChar c = true) : c ∉ typeMarks := by
  have hmarks : (typeMarks.all fun x => !isTermChar x) = true := by decide
  intro hc
  have := List.all_eq_true.mp hmarks c hc
  simp [h] at this

theorem isBlank_of_isTermChar (h : isTermChar c = true) : isBlank c = false := by
  simp only [isTermChar, isClassChar, Bool.or_eq_true, Bool.and_eq_true, beq_iff_eq,
    Bool.not_eq_true'] at h
  rcases h with ((h | rfl) | h) | rfl
  · have hcode := Text.toNat_of_isIdentChar h
    exact Text.isBlank_eq_false (by omega)
  · decide
  · exact h.2
  · decide

theorem isWordChar_of_isTermChar (h : isTermChar c = true) : isWordChar separators c = true := by
  have hc := not_mem_typeMarks h
  simp only [typeMarks, List.mem_cons, List.not_mem_nil, or_false, not_or] at hc
  refine isWordChar_iff.mpr ⟨?_, isBlank_of_isTermChar h, ?_⟩
  · simp [isInert, TypeText.isQuote, TypeText.isOpener, TypeText.isCloser, hc]
  · simp [separators, hc]

theorem isTermChar_of_isGenericChar (h : isGenericChar c = true) : isTermChar c = true := by
  simp only [isGenericChar, Bool.or_eq_true] at h
  rcases h with (h | h) | h <;> simp [isTermChar, isClassChar, h]

theorem toNat_of_isGenericChar (h : isGenericChar c = true) : c.toNat < 128 := by
  simp only [isGenericChar, Bool.or_eq_true, beq_iff_eq] at h
  rcases h with (h | rfl) | rfl
  · have hcode := Text.toNat_of_isIdentChar h
    omega
  · decide
  · decide

theorem isTermChar_of_isClassChar (h : isClassChar c = true) : isTermChar c = true := by
  simp [isTermChar, h]

/-! ## Keywords -/

/-- A character in a keyword in lower case. -/
def isKeywordChar (c : Char) : Bool := c.isLower || c == '-'

/-- The keywords are words, each in the table once. -/
theorem keywordTypes_words : (keywordTypes.all fun e => e.1.toList.all isKeywordChar &&
    !e.1.toList.isEmpty && keywordTypes.lookup e.1 == some e.2) = true := by decide +kernel

theorem isGenericChar_of_toLower (h : isKeywordChar c.toLower = true) :
    isGenericChar c = true := by
  cases hc : c.isUpper with
  | true =>
    have : isIdentChar c = true := Text.isIdentChar_iff.mpr (.inl hc)
    simp [isGenericChar, this]
  | false =>
    rw [Text.toLower_eq_self hc, isKeywordChar, Bool.or_eq_true, beq_iff_eq] at h
    rcases h with h | rfl
    · have : isIdentChar c = true := Text.isIdentChar_iff.mpr (.inr (.inl h))
      simp [isGenericChar, this]
    · decide

/-- A text that is a keyword in lower case has no other characters. -/
theorem isGenericChar_of_map_toLower {s w : List Char} (hlower : s.map Char.toLower = w)
    (hw : ∀ c ∈ w, isKeywordChar c = true) : ∀ c ∈ s, isGenericChar c = true := by
  intro c hc
  refine isGenericChar_of_toLower (hw _ ?_)
  rw [← hlower]
  exact List.mem_map_of_mem hc

namespace Keyword

variable (k : Keyword)

/-- What the table has to say of a keyword. -/
theorem isWord : (∀ c ∈ k.word.toList, isKeywordChar c = true) ∧ k.word.toList ≠ [] ∧
    keywordTypes.lookup k.word = some k.type := by
  have := List.all_eq_true.mp keywordTypes_words _ k.mem
  simpa only [Bool.and_eq_true, List.all_eq_true, Bool.not_eq_true', List.isEmpty_eq_false_iff,
    beq_iff_eq, and_assoc] using this

theorem ne_nil : k.text ≠ [] := by
  intro hnil
  have hlower := k.lower
  rw [hnil] at hlower
  exact k.isWord.2.1 hlower.symm

theorem isGenericChar : ∀ c ∈ k.text, isGenericChar c = true :=
  isGenericChar_of_map_toLower k.lower k.isWord.1

theorem isTermChar : ∀ c ∈ k.text, isTermChar c = true :=
  fun c hc => isTermChar_of_isGenericChar (k.isGenericChar c hc)

end Keyword

theorem ClassRef.isTermChar (r : ClassRef) : ∀ c ∈ r.text, isTermChar c = true :=
  fun c hc => isTermChar_of_isClassChar (r.isClassChar c hc)

theorem GenericName.isTermChar (n : GenericName) : ∀ c ∈ n.text, isTermChar c = true :=
  fun c hc => isTermChar_of_isGenericChar (n.isGenericChar c hc)

/-! ## Units of a text -/

theorem isUnit_inParens (hs : IsNested s) : IsUnit seps (inParens s) :=
  isBrackets_round.isUnit (w := []) (fun _ hc => absurd hc List.not_mem_nil) hs

theorem isUnit_operandText {isOpen : Bool} (hs : IsNested s)
    (hunit : isOpen = false → IsUnit seps s) : IsUnit seps (operandText isOpen s) := by
  cases isOpen with
  | true => exact isUnit_inParens hs
  | false => exact hunit rfl

theorem isUnit_of_isTermChar (hne : s ≠ []) (h : ∀ c ∈ s, isTermChar c = true) :
    IsUnit separators s :=
  isUnit_of_isWordChar hne fun c hc => isWordChar_of_isTermChar (h c hc)

theorem Spacing.isInert_around (g : Spacing) {sep : Char} (hsep : isInert sep = true) :
    ∀ c ∈ g.around sep, isInert c = true :=
  List.forall_mem_append.mpr
    ⟨fun c hc => TypeText.isInert_of_isBlank (g.allBlank.1 c hc), List.forall_mem_cons.mpr
      ⟨hsep, fun c hc => TypeText.isInert_of_isBlank (g.allBlank.2 c hc)⟩⟩

theorem isUnit_genericText (l : Layout) (name : GenericName) (h : ∀ a ∈ args, IsNested a) :
    IsUnit separators (genericText l name.text args) :=
  isBrackets_angle.isUnit (fun c hc => isWordChar_of_isTermChar (name.isTermChar c hc))
    (isNested_intercalate (isNested_of_isInert (l.comma.isInert_around (by decide))) h)

/-- Bars with blanks around them are none of the other separators. -/
theorem Spacing.isUnit_bars (g : Spacing) {ps : List (List Char)} (hne : ps ≠ [])
    (h : ∀ p ∈ ps, IsUnit separators p) : IsUnit ['&', ','] ((g.around '|').intercalate ps) := by
  refine isUnit_intercalate (fun c hc => ⟨g.isInert_around (by decide) c hc, ?_⟩) hne
    fun p hp => (h p hp).mono (by decide)
  -- what is not the bar itself is blank, and the others are not
  have hblank : c = '|' ∨ isBlank c = true := by
    rcases List.mem_append.mp hc with hc | hc
    · exact .inr (g.allBlank.1 c hc)
    · exact (List.mem_cons.mp hc).imp_right (g.allBlank.2 c)
  rcases hblank with rfl | hblank
  · decide
  · have hmarks : (['&', ','].all fun x => !isBlank x) = true := by decide
    intro hmem
    have := List.all_eq_true.mp hmarks c hmem
    simp [hblank] at this

namespace TypeTerm

/-- The separators that do not cut the text of a type: a union is cut by its bars. -/
def uncut : TypeTerm → List Char
  | .union .. => ['&', ',']
  | _ => separators

theorem uncut_of_not_isOpen {t : TypeTerm} (h : t.isOpen = false) : t.uncut = separators := by
  cases t <;> first | rfl | cases h

/-- Arguments are not cut by commas. -/
theorem isUnit_argument {t : TypeTerm} {l : Layout} (h : IsUnit t.uncut (t.text l)) :
    IsUnit [','] (t.text l) := by
  have hcomma : ',' ∈ t.uncut := by
    cases t <;> simp [uncut, separators]
  exact h.mono fun c hc => List.mem_singleton.mp hc ▸ hcomma

/-- **Operands are cut by no separator**, if their types are cut by none but their own. -/
theorem isUnit_operandText {t : TypeTerm} {l : Layout} (h : IsUnit t.uncut (t.text l)) :
    IsUnit separators (operandText t.isOpen (t.text l)) :=
  Source.isUnit_operandText h.nested fun hopen => uncut_of_not_isOpen hopen ▸ h

-- The induction is on the term: what stands in brackets only has to be nested, and operands are
-- the same as their types but for parentheses.
mutual
/-- **No separator but its own bars cuts a type.** -/
theorem isUnit_text (l : Layout) : (t : TypeTerm) → IsUnit t.uncut (t.text l)
  | .keyword k => isUnit_of_isTermChar k.ne_nil k.isTermChar
  | .named r => isUnit_of_isTermChar r.ne_nil r.isTermChar
  | .grouped t => isUnit_inParens (isUnit_text l t).nested
  | .array t => (isUnit_operandText (isUnit_text l t)).append_brackets isBrackets_square
  | .list name value => isUnit_genericText l name.toGenericName
      (List.forall_mem_singleton.mpr (isUnit_text l value).nested)
  | .map name key value => isUnit_genericText l name.toGenericName
      (List.forall_mem_cons.mpr ⟨(isUnit_text l key).nested,
        List.forall_mem_singleton.mpr (isUnit_text l value).nested⟩)
  | .generic name args => isUnit_genericText l name.toGenericName fun a ha =>
      (isUnit_of_mem_texts l args a ha).nested
  | .nullable t => (isUnit_operandText (isUnit_text l t)).cons (by decide)
  | .union first second more =>
    l.bar.isUnit_bars (List.cons_ne_nil _ _) (List.forall_mem_cons.mpr
      ⟨isUnit_operandText (isUnit_text l first), List.forall_mem_cons.mpr
        ⟨isUnit_operandText (isUnit_text l second), isUnit_of_mem_operandTexts l more⟩⟩)
theorem isUnit_of_mem_texts (l : Layout) : (ts : List TypeTerm) →
    ∀ s ∈ texts l ts, IsUnit [','] s
  | [] => fun _ hs => absurd hs List.not_mem_nil
  | t :: ts =>
    List.forall_mem_cons.mpr ⟨isUnit_argument (isUnit_text l t), isUnit_of_mem_texts l ts⟩
theorem isUnit_of_mem_operandTexts (l : Layout) : (ts : List TypeTerm) →
    ∀ s ∈ operandTexts l ts, IsUnit separators s
  | [] => fun _ hs => absurd hs List.not_mem_nil
  | t :: ts => List.forall_mem_cons.mpr
      ⟨isUnit_operandText (isUnit_text l t), isUnit_of_mem_operandTexts l ts⟩
end

end TypeTerm

/-! ## Units of a translation -/

/-- The text may be a member: it is a unit that no bar cuts. -/
def IsMemberUnit (m : String) : Prop := IsUnit ['|'] m.toList

theorem IsMemberUnit.isMember {m : String} (h : IsMemberUnit m) : TypeText.IsMember m.toList :=
  ⟨h.trimmed, h.ne_nil, h.part _ List.mem_cons_self⟩

/-- Units may be the members of a union. -/
theorem areMembers_of_isMemberUnit (h : ∀ m ∈ ms, IsMemberUnit m) : TypeText.AreMembers ms where
  isMember m hm := (h m hm).isMember
  isClosed m hm := (h m (List.dropLast_subset _ hm)).nested.isClosed

theorem isMemberUnit_of_isWordChar {m : String} (hne : m.toList ≠ [])
    (h : ∀ c ∈ m.toList, isWordChar ['|'] c = true) : IsMemberUnit m :=
  isUnit_of_isWordChar hne h

theorem isNested_barred (h : ∀ m ∈ ms, IsMemberUnit m) : IsNested (barred ms).toList := by
  rw [barred, String.toList_intercalate]
  refine isNested_intercalate (isNested_of_isInert (List.all_eq_true.mp (by decide))) fun p hp => ?_
  obtain ⟨m, hm, rfl⟩ := List.mem_map.mp hp
  exact (h m hm).nested

theorem isMemberUnit_arrayOf {t : String} (h : IsNested t.toList) : IsMemberUnit (arrayOf t) := by
  have htext : (arrayOf t).toList = "Array".toList ++ '<' :: (t.toList ++ ['>']) := by
    simp [arrayOf]
  rw [IsMemberUnit, htext]
  exact isBrackets_angle.isUnit (List.all_eq_true.mp (by decide)) h

theorem isMemberUnit_record {t : String} (h : IsNested t.toList) :
    IsMemberUnit ("Record<string, " ++ t ++ ">") := by
  have htext : ("Record<string, " ++ t ++ ">").toList =
      "Record".toList ++ '<' :: (("string, ".toList ++ t.toList) ++ ['>']) := by
    simp
  have hkey : IsNested "string, ".toList := isNested_of_isInert (List.all_eq_true.mp (by decide))
  rw [IsMemberUnit, htext]
  exact isBrackets_angle.isUnit (List.all_eq_true.mp (by decide)) (hkey.append h)

/-- The types of keywords are words, or arrays of what is not known. -/
theorem keywordTypes_types : (keywordTypes.all fun e => (!e.2.toList.isEmpty &&
    e.2.toList.all (isWordChar ['|'])) || e.2 == arrayOf TypeText.unknown) = true := by
  decide +kernel

theorem isMemberUnit_unknown : IsMemberUnit TypeText.unknown :=
  isMemberUnit_of_isWordChar (by decide) (List.all_eq_true.mp (by decide))

theorem isMemberUnit_null : IsMemberUnit null :=
  isMemberUnit_of_isWordChar (by decide) (List.all_eq_true.mp (by decide))

theorem Keyword.isMemberUnit (k : Keyword) : IsMemberUnit k.type := by
  have := List.all_eq_true.mp keywordTypes_types _ k.mem
  simp only [Bool.or_eq_true, Bool.and_eq_true, Bool.not_eq_true', List.isEmpty_eq_false_iff,
    List.all_eq_true, beq_iff_eq] at this
  rcases this with ⟨hne, hword⟩ | harray
  · exact isMemberUnit_of_isWordChar hne hword
  · rw [harray]
    exact isMemberUnit_arrayOf isMemberUnit_unknown.nested

theorem ClassRef.isMemberUnit (r : ClassRef) : IsMemberUnit r.type := by
  rw [type]
  split
  · exact isMemberUnit_of_isWordChar (by decide) (List.all_eq_true.mp (by decide))
  · rw [IsMemberUnit, segment, String.toList_ofList]
    refine (isUnit_of_isTermChar (Text.lastPiece_ne_nil r.ne_nil r.last_ne) fun c hc => ?_).mono
      (by decide)
    exact r.isTermChar c (Text.mem_of_mem_lastPiece hc)

namespace TypeTerm

theorem members_ne_nil : (t : TypeTerm) → t.members ≠ []
  | .keyword _ | .named _ | .array _ | .list _ _ | .map _ _ _ | .generic _ _ =>
    List.cons_ne_nil _ _
  | .grouped t => members_ne_nil t
  | .nullable t => List.append_ne_nil_of_right_ne_nil _ (List.cons_ne_nil _ _)
  | .union first second more => by
    obtain ⟨m, ms, hm⟩ := List.exists_cons_of_ne_nil (members_ne_nil first)
    rw [members, hm, List.cons_append, List.eraseDups_cons]
    exact List.cons_ne_nil _ _

mutual
/-- **The members of a translation are units**, so its bars are between them. -/
theorem isMemberUnit_of_mem_members : (t : TypeTerm) → ∀ m ∈ t.members, IsMemberUnit m
  | .keyword k => List.forall_mem_singleton.mpr k.isMemberUnit
  | .named r => List.forall_mem_singleton.mpr r.isMemberUnit
  | .grouped t => isMemberUnit_of_mem_members t
  | .array t | .list _ t => List.forall_mem_singleton.mpr
      (isMemberUnit_arrayOf (isNested_barred (isMemberUnit_of_mem_members t)))
  | .map _ key value => by
    have hvalue := isNested_barred (isMemberUnit_of_mem_members value)
    refine List.forall_mem_singleton.mpr ?_
    split
    · exact isMemberUnit_record hvalue
    · exact isMemberUnit_arrayOf hvalue
  | .generic _ _ => List.forall_mem_singleton.mpr isMemberUnit_unknown
  | .nullable t => List.forall_mem_append.mpr
      ⟨isMemberUnit_of_mem_members t, List.forall_mem_singleton.mpr isMemberUnit_null⟩
  | .union first second more => fun m hm => by
    rw [members, List.mem_eraseDups, List.mem_append, List.mem_append] at hm
    rcases hm with hm | hm | hm
    · exact isMemberUnit_of_mem_members first m hm
    · exact isMemberUnit_of_mem_members second m hm
    · exact isMemberUnit_of_mem_membersAll more m hm
theorem isMemberUnit_of_mem_membersAll : (ts : List TypeTerm) → ∀ m ∈ membersAll ts, IsMemberUnit m
  | [] => fun _ hm => absurd hm List.not_mem_nil
  | t :: ts => List.forall_mem_append.mpr
      ⟨isMemberUnit_of_mem_members t, isMemberUnit_of_mem_membersAll ts⟩
end

/-- The members of a translation are distinct. -/
theorem nodup_members : (t : TypeTerm) → t.nullsApart = true → t.members.Nodup
  | .keyword _, _ | .named _, _ | .array _, _ | .list _ _, _ | .map _ _ _, _ | .generic _ _, _ =>
    List.nodup_singleton _
  | .grouped t, h => nodup_members t h
  | .nullable t, h => by
    simp only [nullsApart, Bool.and_eq_true, Bool.not_eq_true', List.contains_eq_mem,
      decide_eq_false_iff_not] at h
    exact List.nodup_append.mpr ⟨nodup_members t h.2, List.nodup_singleton _, fun m hm n hn => by
      rintro rfl
      exact h.1 (List.mem_singleton.mp hn ▸ hm)⟩
  | .union first second more, _ => TypeText.nodup_eraseDups _

/-- The translation is the union of its members. -/
theorem union_members {t : TypeTerm} (h : t.nullsApart = true) :
    TypeText.union t.members = t.type := by
  rw [TypeText.union, TypeText.eraseDups_eq_self (nodup_members t h), type, barred]

/-- **The members of the translation of a type are its members.** -/
theorem members_type {t : TypeTerm} (h : t.nullsApart = true) :
    TypeText.members t.type = t.members := by
  rw [← union_members h, (areMembers_of_isMemberUnit (isMemberUnit_of_mem_members t)).members_union,
    TypeText.eraseDups_eq_self (nodup_members t h)]

end TypeTerm

end PayloadTypes.Source
