import PayloadTypes.Proofs.Source.TypeReading
import PayloadTypes.Source.Scope
/-!
# Types of keywords alone

Two tables say what a keyword is: a scope keeps the words of the one as they are
(`keywords`), and the conversion has types for the words of the other
(`keywordTypes`). A type that is put together of kept keywords refers to no class,
so nothing should be recorded where it is converted. What is recorded are just
its keywords that the second table lacks, at the places that are converted
(`KeywordType.names_recordedSymbols`).

Here types are written with no more parentheses than they hold, so a question
mark or brackets beside a union stand beside one of its operands. Reading takes
off one mark in front (`exists_of_text_eq_cons`) or cuts a union at its bars
(`exists_operands`), and either leaves types of the same kind.
-/

namespace PayloadTypes.Source

open TypeText (IsNested IsUnit Scan isBrackets_square members)

variable {c : Char} {s w : List Char} {ps qs : List (List Char)} {l : Layout}

/-! ## Keywords that are kept -/

/-- A keyword that a scope keeps as it is, in any case of its letters. -/
structure KeptKeyword where
  /-- The keyword in lower case. -/
  word : String
  /-- The scope keeps it. -/
  mem : word ∈ keywords
  /-- The keyword as it is written. -/
  text : List Char
  /-- Only the case of its letters may differ. -/
  lower : text.map Char.toLower = word.toList

/-- The kept keywords without a type. -/
def strayKeywords : List String := ["callable", "parent", "never", "resource", "scalar"]

/-- The kept keywords are words, and the table of types has all of them but the stray ones. -/
theorem keywords_words : (keywords.all fun w => w.toList.all isKeywordChar &&
    !w.toList.isEmpty && ((keywordTypes.lookup w).isNone == strayKeywords.contains w)) = true := by
  decide +kernel

/-- The stray keywords are made of letters, and none is the name of a class that holds a date. -/
theorem strayKeywords_letters : (strayKeywords.all fun w => w.toList.all Char.isLower &&
    dateClasses.all fun d => d.toList.map Char.toLower != w.toList) = true := by decide +kernel

namespace KeptKeyword

variable (k : KeptKeyword)

/-- What the tables have to say of a keyword. -/
theorem isWord : (∀ c ∈ k.word.toList, isKeywordChar c = true) ∧ k.word.toList ≠ [] ∧
    (keywordTypes.lookup k.word = none ↔ k.word ∈ strayKeywords) := by
  have := List.all_eq_true.mp keywords_words _ k.mem
  simp only [Bool.and_eq_true, List.all_eq_true, Bool.not_eq_true', List.isEmpty_eq_false_iff,
    beq_iff_eq, and_assoc] at this
  refine ⟨this.1, this.2.1, ?_⟩
  rw [← Option.isNone_iff_eq_none, this.2.2, List.contains_iff_mem]

theorem ne_nil : k.text ≠ [] := by
  intro hnil
  have hlower := k.lower
  rw [hnil] at hlower
  exact k.isWord.2.1 hlower.symm

theorem isGenericChar : ∀ c ∈ k.text, isGenericChar c = true :=
  isGenericChar_of_map_toLower k.lower k.isWord.1

theorem isTermChar : ∀ c ∈ k.text, isTermChar c = true :=
  fun c hc => isTermChar_of_isGenericChar (k.isGenericChar c hc)

theorem lower_text : Text.lower k.text = k.word.toList := by
  rw [← k.lower]
  exact Text.lower_eq_map fun c hc => toNat_of_isGenericChar (k.isGenericChar c hc)

/-- The keyword has no type. -/
def isStray : Bool := strayKeywords.contains k.word

theorem isStray_iff : k.isStray = true ↔ k.word ∈ strayKeywords := List.contains_iff_mem

/-- A stray keyword is written in letters, and is no class that holds a date. -/
theorem isLetters (h : k.isStray = true) :
    (∀ c ∈ k.text, c.toLower.isLower = true) ∧ String.ofList k.text ∉ dateClasses := by
  have := List.all_eq_true.mp strayKeywords_letters _ (k.isStray_iff.mp h)
  simp only [Bool.and_eq_true, List.all_eq_true, bne_iff_ne] at this
  refine ⟨fun c hc => this.1 _ (k.lower ▸ List.mem_map_of_mem hc), fun hdate => ?_⟩
  exact this.2 _ hdate (by rw [String.toList_ofList, k.lower])

theorem backslash_not_mem (h : k.isStray = true) : '\\' ∉ k.text :=
  fun hc => absurd ((k.isLetters h).1 _ hc) (by decide)

/-- A stray keyword is taken for a class. -/
def classRef (h : k.isStray = true) : ClassRef where
  text := k.text
  isClassChar c hc := by
    have hchar := k.isGenericChar c hc
    simp only [Source.isGenericChar, Bool.or_eq_true, beq_iff_eq] at hchar
    rcases hchar with (hchar | rfl) | rfl
    · simp [Source.isClassChar, hchar]
    · decide
    · exact absurd ((k.isLetters h).1 '-' hc) (by decide)
  ne_nil := k.ne_nil
  last_ne hlast := k.backslash_not_mem h (List.mem_of_mem_getLast? hlast)
  not_keyword := by
    rw [k.lower_text, String.ofList_toList]
    exact k.isWord.2.2.mpr (k.isStray_iff.mp h)

/-- The stray ones of a row of keywords, as they are written. -/
def strayTexts (ks : List KeptKeyword) : List String :=
  (ks.filter isStray).map fun k => String.ofList k.text

/-- A keyword is recorded just if it is stray, as it is written. -/
theorem references_convertName : (convertName k.text).references = strayTexts [k] := by
  rw [strayTexts, List.filter_singleton]
  cases h : k.isStray with
  | true =>
    -- A stray keyword is one segment and no name of a date, so it is recorded as it stands.
    have hsegment : Text.lastPiece '\\' k.text = k.text := by
      simpa using Text.lastPiece_append (t := []) (by simp) (k.backslash_not_mem h)
    have hdate : (k.classRef h).isDate = false := by
      rw [ClassRef.isDate, ClassRef.segment, ← Bool.not_eq_true, List.contains_iff_mem]
      exact hsegment.symm ▸ (k.isLetters h).2
    have hname : convertName k.text = _ := convertName_named (k.classRef h)
    rw [hname, recorded, List.filter_singleton, hdate]
    rfl
  | false =>
    -- Any other keyword has a type of its own.
    have hlookup : keywordTypes.lookup k.word ≠ none := fun hnone => by
      rw [k.isStray_iff.mpr (k.isWord.2.2.mp hnone)] at h
      cases h
    obtain ⟨t, ht⟩ := Option.ne_none_iff_exists'.mp hlookup
    rw [convertName, k.lower_text, String.ofList_toList, ht]
    rfl

/-- The full name of a stray keyword is the keyword. -/
theorem fullName_text (h : k.isStray = true) :
    fullName (String.ofList k.text) = String.ofList k.text ∧ String.ofList k.text ≠ "" := by
  have hname : fullName (String.ofList k.text) = String.ofList k.text := by
    refine (k.classRef h).fullName_text.trans (congrArg String.ofList ?_)
    exact List.dropWhile_eq_self_iff.mpr fun hpos hfirst =>
      k.backslash_not_mem h (eq_of_beq hfirst ▸ List.getElem_mem hpos)
  exact ⟨hname, hname ▸ (k.classRef h).fullName_text ▸ (k.classRef h).fullName_ne_empty⟩

end KeptKeyword

/-! ## Types of keywords -/

/-- A type that is put together of kept keywords. -/
inductive KeywordType where
  /-- A keyword. -/
  | word (k : KeptKeyword)
  /-- A question mark in front of a type. -/
  | nullable (t : KeywordType)
  /-- Two types with a bar in between. -/
  | union (first second : KeywordType)
  /-- Square brackets behind a type. -/
  | array (t : KeywordType)
  /-- A type in parentheses. -/
  | grouped (t : KeywordType)
  /-- A list with any number of arguments. -/
  | list (name : ListName) (args : List KeywordType)

namespace KeywordType

open KeptKeyword (strayTexts)

mutual
/-- A type as it is written. -/
def text (l : Layout) : KeywordType → List Char
  | .word k => k.text
  | .nullable t => '?' :: t.text l
  | .union first second => first.text l ++ (l.bar.around '|' ++ second.text l)
  | .array t => t.text l ++ ['[', ']']
  | .grouped t => inParens (t.text l)
  | .list name args => genericText l name.text (texts l args)
/-- Types as they are written. -/
def texts (l : Layout) : List KeywordType → List (List Char)
  | [] => []
  | t :: ts => t.text l :: texts l ts
end

mutual
/-- The keywords at the places that are converted: of the arguments of a list these are the places
of the last one. -/
def places : KeywordType → List KeptKeyword
  | .word k => [k]
  | .nullable t | .array t | .grouped t => t.places
  | .union first second => first.places ++ second.places
  | .list _ args => placesLast args
/-- The keywords at such places of the last of several types. -/
def placesLast : List KeywordType → List KeptKeyword
  | [] => []
  | [t] => t.places
  | _ :: t :: ts => placesLast (t :: ts)
end

theorem texts_eq_map (l : Layout) (ts : List KeywordType) : texts l ts = ts.map (text l) := by
  induction ts with
  | nil => rfl
  | cons t ts ih => rw [texts, ih, List.map_cons]

theorem placesLast_eq_getLast {ts : List KeywordType} (hne : ts ≠ []) :
    placesLast ts = (ts.getLast hne).places := by
  induction ts with
  | nil => exact absurd rfl hne
  | cons t ts ih =>
    cases ts with
    | nil => rfl
    | cons u ts => rw [placesLast, ih (List.cons_ne_nil _ _), List.getLast_cons_cons]

/-! ## Operands -/

/-- A row of types whose union the type is, each uncut by bars. -/
structure IsUnionOf (l : Layout) (t : KeywordType) (us : List KeywordType) : Prop where
  /-- There is one at least. -/
  ne_nil : us ≠ []
  /-- The type is written as they are, with bars in between. -/
  text : t.text l = (l.bar.around '|').intercalate (us.map (text l))
  /-- No separator cuts any of them. -/
  isUnit : ∀ u ∈ us, IsUnit separators (u.text l)
  /-- They have the places of the type. -/
  places : us.flatMap places = t.places

variable {t u : KeywordType} {us vs : List KeywordType}

namespace IsUnionOf

/-- A type that no separator cuts is its own only operand. -/
theorem singleton (h : IsUnit separators (t.text l)) : IsUnionOf l t [t] where
  ne_nil := List.cons_ne_nil _ _
  text := by rw [List.map_singleton, List.intercalate_singleton]
  isUnit := List.forall_mem_singleton.mpr h
  places := List.flatMap_singleton _ _

/-- **Commas and ampersands do not cut a type.** -/
theorem isUnit_text (h : IsUnionOf l t us) : IsUnit ['&', ','] (t.text l) := by
  have hne : us.map (KeywordType.text l) ≠ [] := by simpa using h.ne_nil
  rw [h.text]
  exact l.bar.isUnit_bars hne (List.forall_mem_map.mpr h.isUnit)

/-- A type with one operand is uncut like it. -/
theorem isUnit_of_length_le (h : IsUnionOf l t us) (hlen : us.length ≤ 1) :
    IsUnit separators (t.text l) := by
  obtain ⟨u, us, rfl⟩ := List.exists_cons_of_ne_nil h.ne_nil
  obtain rfl : us = [] := by simpa using hlen
  rw [h.text, List.map_singleton, List.intercalate_singleton]
  exact h.isUnit u List.mem_cons_self

/-- A question mark stands in front of the first operand. -/
theorem nullable (h : IsUnionOf l t us) : ∃ vs, IsUnionOf l t.nullable vs := by
  obtain ⟨u, us, rfl⟩ := List.exists_cons_of_ne_nil h.ne_nil
  obtain ⟨hu, hus⟩ := List.forall_mem_cons.mp h.isUnit
  refine ⟨u.nullable :: us, List.cons_ne_nil _ _, ?_, ?_, h.places⟩
  · rw [KeywordType.text, h.text, List.map_cons, List.map_cons, KeywordType.text,
      List.intercalate_cons_cons_left]
  · exact List.forall_mem_cons.mpr ⟨hu.cons (by decide), hus⟩

theorem union (h : IsUnionOf l t us) (h' : IsUnionOf l u vs) :
    IsUnionOf l (t.union u) (us ++ vs) where
  ne_nil := List.append_ne_nil_of_left_ne_nil h.ne_nil _
  text := by
    have hus : us.map (KeywordType.text l) ≠ [] := by simpa using h.ne_nil
    have hvs : vs.map (KeywordType.text l) ≠ [] := by simpa using h'.ne_nil
    rw [KeywordType.text, h.text, h'.text, List.map_append, Text.intercalate_append hus hvs]
  isUnit := List.forall_mem_append.mpr ⟨h.isUnit, h'.isUnit⟩
  places := by rw [List.flatMap_append, h.places, h'.places, KeywordType.places]

/-- Square brackets stand behind the last operand. -/
theorem array (h : IsUnionOf l t us) : ∃ vs, IsUnionOf l t.array vs := by
  obtain ⟨us, u, rfl⟩ := (List.eq_nil_or_concat' us).resolve_left h.ne_nil
  obtain ⟨hus, hu⟩ := List.forall_mem_append.mp h.isUnit
  refine ⟨us ++ [u.array], by simp, ?_, ?_, ?_⟩
  · rw [KeywordType.text, h.text, List.map_append, List.map_append, List.map_singleton,
      List.map_singleton, KeywordType.text, Text.intercalate_concat_append]
  · exact List.forall_mem_append.mpr ⟨hus, List.forall_mem_singleton.mpr
      ((List.forall_mem_singleton.mp hu).append_brackets isBrackets_square)⟩
  · rw [KeywordType.places, ← h.places, List.flatMap_append, List.flatMap_append]
    rfl

end IsUnionOf

-- The induction is on the term: what stands in brackets only has to close what it opens.
mutual
/-- **Every type is a union of operands.** -/
theorem exists_isUnionOf (l : Layout) : (t : KeywordType) → ∃ us, IsUnionOf l t us
  | .word k => ⟨_, .singleton (isUnit_of_isTermChar k.ne_nil k.isTermChar)⟩
  | .nullable t => by
    obtain ⟨us, h⟩ := exists_isUnionOf l t
    exact h.nullable
  | .union first second => by
    obtain ⟨us, h⟩ := exists_isUnionOf l first
    obtain ⟨vs, h'⟩ := exists_isUnionOf l second
    exact ⟨us ++ vs, h.union h'⟩
  | .array t => by
    obtain ⟨us, h⟩ := exists_isUnionOf l t
    exact h.array
  | .grouped t => by
    obtain ⟨us, h⟩ := exists_isUnionOf l t
    exact ⟨_, .singleton (isUnit_inParens h.isUnit_text.nested)⟩
  | .list name args =>
    ⟨_, .singleton (isUnit_genericText l name.toGenericName (isNested_of_mem_texts l args))⟩
/-- Arguments close what they open. -/
theorem isNested_of_mem_texts (l : Layout) : (ts : List KeywordType) →
    ∀ s ∈ texts l ts, IsNested s
  | [] => fun _ hs => absurd hs List.not_mem_nil
  | t :: ts => by
    obtain ⟨us, h⟩ := exists_isUnionOf l t
    exact List.forall_mem_cons.mpr ⟨h.isUnit_text.nested, isNested_of_mem_texts l ts⟩
end

theorem isUnit_text (l : Layout) (t : KeywordType) : IsUnit ['&', ','] (t.text l) := by
  obtain ⟨us, h⟩ := exists_isUnionOf l t
  exact h.isUnit_text

/-- A mark in front of a type with more text behind it is a mark in front of the type. -/
theorem exists_text_eq_cons {r : List Char} (t : KeywordType) (h : t.text l ++ r = c :: s) :
    ∃ s', t.text l = c :: s' ∧ s' ++ r = s := by
  obtain ⟨d, s', ht⟩ := List.exists_cons_of_ne_nil (isUnit_text l t).ne_nil
  rw [ht, List.cons_append] at h
  obtain ⟨rfl, htail⟩ := List.cons.inj h
  exact ⟨s', ht, htail⟩

/-- A bar cuts a union. -/
theorem not_isUnit_union (first second : KeywordType) :
    ¬ IsUnit separators ((first.union second).text l) := by
  intro h
  have hpart := h.part '|' (by decide)
  have hclosed : (Scan.plain 0).after (first.text l) = .plain 0 :=
    (isUnit_text l first).nested.isClosed
  have hblank : (Scan.plain 0).after l.bar.before = .plain 0 :=
    TypeText.isClosed_of_allBlank l.bar.allBlank.1
  rw [text, Spacing.around, List.append_assoc, TypeText.isPart_append, hclosed,
    TypeText.isPart_append, hblank, List.cons_append, TypeText.isPart_cons] at hpart
  exact absurd hpart.2.2.1 (by decide)

/-- **Behind a mark in front stands a type with the same places.** The mark in front of a union or
an array is the one of its first operand. -/
theorem exists_of_text_eq_cons : (t : KeywordType) → {s : List Char} → t.text l = '?' :: s →
    ∃ u : KeywordType, u.text l = s ∧ u.places = t.places
  | .word k, _, h => absurd (List.head?_eq_some_iff.mpr ⟨_, h⟩) (head_ne_of_isTermChar k.isTermChar)
  | .nullable t, _, h => ⟨t, (List.cons.inj h).2, rfl⟩
  | .union first second, _, h => by
    obtain ⟨s', hs', rfl⟩ := exists_text_eq_cons first h
    obtain ⟨u, rfl, hu⟩ := exists_of_text_eq_cons first hs'
    exact ⟨u.union second, rfl, by rw [places, places, hu]⟩
  | .array t, _, h => by
    obtain ⟨s', hs', rfl⟩ := exists_text_eq_cons t h
    obtain ⟨u, rfl, hu⟩ := exists_of_text_eq_cons t hs'
    exact ⟨u.array, rfl, hu⟩
  | .grouped _, _, h => absurd (List.cons.inj h).1 (by decide)
  | .list name _, _, h => absurd (List.head?_eq_some_iff.mpr ⟨_, h⟩)
      (head_ne_genericText l name.toGenericName _)

/-! ## What is recorded -/

theorem strayTexts_flatMap (us : List KeywordType) :
    strayTexts (us.flatMap places) = us.flatMap fun u => strayTexts u.places := by
  simp only [strayTexts, List.filter_flatMap, List.map_flatMap]

/-- The shape of a list is found by its arguments, and what is converted is the last one. -/
theorem shape_list_text (l : Layout) (name : ListName) (args : List KeywordType) :
    (args = [] ∧ shape ((list name args).text l) = .generic) ∨
      ∃ t ∈ args, ∃ key, shape ((list name args).text l) = .list key (t.text l) ∧
        (list name args).places = t.places := by
  have hunits : ∀ a ∈ texts l args, IsUnit [','] a := by
    rw [texts_eq_map]
    exact List.forall_mem_map.mpr fun t _ => (isUnit_text l t).mono (by decide)
  rw [text, shape_genericText, genericShape_of_isList, genericArguments_intercalate l hunits,
    texts_eq_map, places]
  match args with
  | [] => exact .inl ⟨rfl, rfl⟩
  | [t] => exact .inr ⟨t, List.mem_cons_self, none, rfl, rfl⟩
  | t :: u :: ts =>
    have hne : u :: ts ≠ [] := List.cons_ne_nil _ _
    refine .inr ⟨(u :: ts).getLast hne, List.mem_cons_of_mem _ (List.getLast_mem hne),
      some (t.text l), ?_, ?_⟩
    · exact congrArg (TypeShape.list _) (List.getLast_map (l := u :: ts) (by simp))
    · rw [placesLast, placesLast_eq_getLast hne]

/-- **What is recorded where a type is converted** are its stray keywords at the places that are
converted, in order. -/
theorem references_convert (l : Layout) (t : KeywordType) :
    (convert (String.ofList (t.text l))).references = strayTexts t.places := by
  induction hn : (t.text l).length using Nat.strong_induction_on generalizing t with
  | _ n ih =>
    subst hn
    by_cases hhead : '?' ∈ (t.text l).head?
    · -- a mark in front is taken off
      obtain ⟨s, hs⟩ := List.head?_eq_some_iff.mp hhead
      obtain ⟨u, rfl, hu⟩ := exists_of_text_eq_cons t hs
      rw [hs, convert_nullable, Converted.map, ← hu]
      exact ih _ (by simp [hs]) u rfl
    obtain ⟨us, hus⟩ := exists_isUnionOf l t
    have hmembers := members_bars l.bar (List.forall_mem_map.mpr hus.isUnit)
    rw [← hus.text] at hmembers
    by_cases hlen : 1 < us.length
    · -- the operands of a union are converted one by one
      have hlonger : ∀ u ∈ us, (u.text l).length < (t.text l).length := by
        intro u hu
        have := TypeText.length_lt_of_mem_members (t := String.ofList (t.text l))
          (m := String.ofList (u.text l))
          (hmembers ▸ List.mem_map_of_mem (List.mem_map_of_mem hu)) (by simpa [hmembers])
        simpa using this
      rw [convert_of_members hhead hmembers (by simpa), Converted.union, ← hus.places,
        strayTexts_flatMap]
      simp only [List.map_map, List.flatMap_map]
      exact List.flatMap_congr fun u hu => ih _ (hlonger u hu) u rfl
    · -- anything else is a single operand, and what is in it is shorter
      have hsingle : IsSingle (t.text l) :=
        ⟨hus.isUnit_of_length_le (Nat.le_of_not_lt hlen), hhead⟩
      cases t with
      | word k =>
        rw [hsingle.convert_of_name (shape_of_isTermChar k.isTermChar)]
        exact k.references_convertName
      | nullable t => exact absurd rfl hhead
      | union first second => exact absurd hsingle.unit (not_isUnit_union first second)
      | array t =>
        rw [hsingle.convert_of_inner (shape_brackets _) rfl]
        exact ih _ (by simp [text]) t rfl
      | grouped t =>
        rw [hsingle.convert_of_inner (shape_inParens _) rfl]
        have hshorter : (t.text l).length < ((grouped t).text l).length := by
          simp only [text, inParens, List.length_cons, List.length_append]
          omega
        exact ih _ hshorter t rfl
      | list name args =>
        rcases shape_list_text l name args with ⟨rfl, hshape⟩ | ⟨t, ht, key, hshape, hplaces⟩
        · rw [hsingle.convert_of_generic hshape]
          rfl
        · have hinner : (shape ((list name args).text l)).inner? = some (t.text l) := by
            rw [hshape]
            rfl
          rw [hsingle.convert_of_inner hshape rfl, hplaces]
          exact ih _ (length_inner?_shape hinner) t rfl

/-- The symbols that are recorded where a type is converted. -/
def recordedSymbols (l : Layout) (t : KeywordType) : Symbols :=
  .ofList (convertDeclared (some (String.ofList (t.text l)))).references

theorem recordedSymbols_eq (l : Layout) (t : KeywordType) :
    t.recordedSymbols l = .ofList (strayTexts t.places) := by
  rw [recordedSymbols, convertDeclared_of_isUnit (isUnit_text l t), references_convert]

/-- **The symbols of a type of keywords** are its stray keywords at the places that are converted,
so there are none exactly where no stray keyword stands at such a place. -/
theorem names_recordedSymbols (l : Layout) (t : KeywordType) :
    (∀ n, n ∈ (t.recordedSymbols l).names ↔
        ∃ k ∈ t.places, k.word ∈ strayKeywords ∧ String.ofList k.text = n) ∧
      ((t.recordedSymbols l).names = [] ↔ ∀ k ∈ t.places, k.word ∉ strayKeywords) := by
  have hmem : ∀ n, n ∈ (t.recordedSymbols l).names ↔
      ∃ k ∈ t.places, k.word ∈ strayKeywords ∧ String.ofList k.text = n := by
    intro n
    rw [recordedSymbols_eq, Symbols.ofList, Symbols.mem_names_addAll,
      or_iff_right (by simp [Symbols.empty])]
    constructor
    · rintro ⟨⟨reference, hreference, rfl⟩, -⟩
      obtain ⟨k, hk, rfl⟩ := List.mem_map.mp hreference
      obtain ⟨hmem, hstray⟩ := List.mem_filter.mp hk
      exact ⟨k, hmem, k.isStray_iff.mp hstray, (k.fullName_text hstray).1.symm⟩
    · rintro ⟨k, hk, hstray, rfl⟩
      have hstray := k.isStray_iff.mpr hstray
      have hkept := List.mem_filter.mpr ⟨hk, hstray⟩
      obtain ⟨hname, hne⟩ := k.fullName_text hstray
      exact ⟨⟨_, List.mem_map_of_mem hkept, hname⟩, hne⟩
  refine ⟨hmem, ?_⟩
  rw [List.eq_nil_iff_forall_not_mem]
  constructor
  · exact fun h k hk hstray => h _ ((hmem _).mpr ⟨k, hk, hstray, rfl⟩)
  · rintro h n hn
    obtain ⟨k, hk, hstray, -⟩ := (hmem n).mp hn
    exact h k hk hstray

end KeywordType

/-- The keyword of what can be called. -/
def callableKeyword : KeptKeyword where
  word := "callable"
  mem := by decide
  text := "callable".toList
  lower := by decide

/-- What can be called is recorded as a class, though a scope keeps the keyword as it is. -/
theorem names_recordedSymbols_callable :
    isKeyword callableKeyword.text = true ∧
      ((KeywordType.word callableKeyword).recordedSymbols docLayout).names = ["callable"] ∧
      ((KeywordType.word callableKeyword).recordedSymbols docLayout).names ≠ [] := by
  have hnames : ((KeywordType.word callableKeyword).recordedSymbols docLayout).names =
      ["callable"] := by
    rw [KeywordType.recordedSymbols_eq]
    decide +kernel
  refine ⟨by decide, hnames, ?_⟩
  rw [hnames]
  exact List.cons_ne_nil _ _

end PayloadTypes.Source
