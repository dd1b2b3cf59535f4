import PayloadTypes.Proofs.Source.RuleSpec
import PayloadTypes.Proofs.Text.Reader
import PayloadTypes.Source.RuleLiteral
/-!
# Reading written specs

Reading undoes writing. Each form is told apart by how it starts: a string by
its quote, an array by its bracket, the construction of an enum rule by `new`
and a call by the facade. What a form holds is an item or a list of items, so
the brackets and commas that are found are the ones that were written.
-/

namespace PayloadTypes.Source

open Text (Reader isBlank isIdentChar isIdentStart IsTrimmed)
open Text.Reader

variable {scope : Scope} {c : Char} {s e inner name type : List Char} {ps : List (List Char)}

/-! ## The steps of reading -/

theorem readRule_of_string {t : String} (h : scalar? (Text.trim e) = .ok (some (.text t))) :
    readRule scope e = .ok (.text t) := by
  rw [readRule]
  simp only [h]

theorem readRule_of_array (h : scalar? (Text.trim e) = .ok none)
    (ha : arrayContent? (Text.trim e) = some inner) :
    readRule scope e =
      (((splitCommas inner).filter fun p => !(Text.trim p).isEmpty).mapM (readRule scope)).map
        Rule.list := by
  rw [readRule]
  simp only [h]
  split
  · next inner' h' =>
    obtain rfl : inner = inner' := Option.some.inj (ha.symm.trans h')
    rw [List.mapM_subtype fun _ _ => rfl, List.unattach_attach]
  · next h' =>
    rw [ha] at h'
    cases h'

theorem readRule_of_call (h : scalar? (Text.trim e) = .ok none)
    (ha : arrayContent? (Text.trim e) = none) :
    readRule scope e = callRule scope (Text.trim e) := by
  rw [readRule]
  simp only [h]
  split
  · next inner' h' =>
    rw [ha] at h'
    cases h'
  · rfl

/-! ## What is no scalar -/

theorem number_eq_none (hsign : (c == '+' || c == '-') = false) (hdigit : Text.isDigit c = false) :
    number (c :: s) = none := by
  rw [number, bind_eq (maybe_eq_none (one_eq_none hsign)), bind_eq_none (many1_eq_none hdigit)]

theorem lookup_wordScalars (h : ∀ w ∈ ["true", "false", "null"], w.toList ≠ s) :
    wordScalars.lookup (String.ofList s) = none := by
  refine List.lookup_eq_none_iff.mpr fun p hp => bne_iff_ne.mpr fun heq => ?_
  have hword : p.1 ∈ ["true", "false", "null"] := List.mem_map_of_mem (f := Prod.fst) hp
  exact h p.1 hword (by rw [← heq, String.toList_ofList])

/-- An expression is no scalar if it starts like none. -/
theorem scalar?_eq_none (htrim : IsTrimmed (c :: s)) (hc : c ∉ ['\'', '"', '+', '-'])
    (hdigit : Text.isDigit c = false)
    (hword : ∀ w ∈ ["true", "false", "null"], w.toList ≠ Text.lower (c :: s)) :
    scalar? (c :: s) = .ok none := by
  simp only [List.mem_cons, List.not_mem_nil, or_false, not_or] at hc
  obtain ⟨hsingle, hdouble, hplus, hminus⟩ := hc
  have hlit : ((stringLiteral? '\'' (c :: s)).orElse fun _ => stringLiteral? '"' (c :: s)) =
      none := by
    rw [stringLiteral?_cons_of_ne (Ne.symm hsingle), stringLiteral?_cons_of_ne (Ne.symm hdouble)]
    rfl
  have hnumber : accepts? number (c :: s) = none := by
    rw [accepts?, number_eq_none (by simp [hplus, hminus]) hdigit]
    rfl
  simp only [scalar?, htrim.trim_eq, hlit, hnumber, lookup_wordScalars hword]

/-! ## Arrays and arguments -/

theorem arrayContent?_arrayText (h : ∀ p ∈ ps, IsItem p) :
    arrayContent? (RuleSpec.arrayText ps) = some (itemList ps) := by
  have henclosed : enclosed? '[' (itemList ps ++ [']']) = some (itemList ps, []) :=
    (nested_itemList h).enclosed?_append (.inr (.inl rfl)) []
  simp only [RuleSpec.arrayText, arrayContent?, henclosed]

theorem arrayContent?_eq_none (h : c ≠ '[') : arrayContent? (c :: s) = none := by
  rw [arrayContent?]
  rintro rest heq
  exact h (List.cons.inj heq).1

/-- No item is blank. -/
theorem filter_not_isEmpty (h : ∀ p ∈ ps, IsItem p) : ps.filter (fun p => !p.isEmpty) = ps :=
  List.filter_eq_self.mpr fun p hp => by simpa using (h p hp).ne_nil

/-- **The arguments are the items of the list between the parentheses.** -/
theorem arguments_itemList (h : ∀ p ∈ ps, IsItem p) : arguments (itemList ps) = ps := by
  rw [arguments, splitCommas_itemList h, filter_not_isEmpty h]

/-- No part of a list of items is blank. -/
theorem filter_splitCommas_itemList (h : ∀ p ∈ ps, IsItem p) :
    (splitCommas (itemList ps)).filter (fun p => !(Text.trim p).isEmpty) =
      splitCommas (itemList ps) := by
  refine List.filter_eq_self.mpr fun p hp => ?_
  have hitem := h (Text.trim p) (splitCommas_itemList h ▸ List.mem_map_of_mem hp)
  simpa using hitem.ne_nil

/-- A string among the parts of a list is read whatever blanks stand around it. -/
theorem scalar?_of_trim_eq {v : String} (h : Text.trim s = RuleSpec.stringText v) :
    scalar? s = .ok (some (.text v)) := by
  rw [← scalar?_trim, h, RuleSpec.stringText, scalar?_quoted isQuote_single, String.ofList_toList]

theorem scalarTexts?_of_map_trim {values : List String} {parts : List (List Char)}
    (h : parts.map Text.trim = values.map RuleSpec.stringText) :
    scalarTexts? parts = .ok (some values) := by
  induction values generalizing parts with
  | nil =>
    obtain rfl := List.map_eq_nil_iff.mp h
    rfl
  | cons v values ih =>
    obtain ⟨p, parts, rfl, hp, hparts⟩ := List.map_eq_cons_iff.mp h
    rw [scalarTexts?, scalar?_of_trim_eq hp, ih hparts]
    exact congrArg (fun x => Except.ok (some (x :: values))) (RuleSpec.scalarText_text v)

theorem mapM_scalar? (values : List String) :
    (values.map RuleSpec.stringText).mapM scalar? =
      .ok (values.map fun v => some (Value.text v)) := by
  induction values with
  | nil => rfl
  | cons v values ih =>
    have hv : scalar? (RuleSpec.stringText v) = .ok (some (.text v)) :=
      scalar?_of_trim_eq (RuleSpec.isItem_stringText v).trimmed.trim_eq
    rw [List.map_cons, List.mapM_cons, hv, ih]
    rfl

/-! ## Constructions -/

theorem classConstant_append (hne : name ≠ []) (h : ∀ c ∈ name, isNameChar c = true)
    (t : List Char) :
    classConstant (name ++ (RuleSpec.classWord ++ t)) = some (String.ofList name, t) := by
  have hcolon : ∀ c ∈ (RuleSpec.classWord ++ t).head?, isNameChar c = false :=
    forall_mem_head?_cons (by decide) _
  rw [classConstant, bind_eq (many1_append hne h hcolon), bind_eq (text_append (by decide) t)]
  rfl

theorem forall_mem_fullName (h : ∀ c ∈ name, isNameChar c = true) :
    ∀ c ∈ '\\' :: name, isNameChar c = true :=
  List.forall_mem_cons.mpr ⟨by decide, h⟩

/-- **A construction is read as its two names.** -/
theorem constructedRule_constructionText (hname : ∀ c ∈ name, isNameChar c = true)
    (htype : ∀ c ∈ type, isNameChar c = true) :
    accepts? constructedRule (RuleSpec.constructionText name type) =
      some (String.ofList ('\\' :: name), String.ofList ('\\' :: type)) := by
  have hdense (x : Char) (t : List Char) (hx : isBlank x = false) :
      ∀ d ∈ (x :: t).head?, isBlank d = false := forall_mem_head?_cons hx t
  have hruleName (t : List Char) :
      many1 isNameChar ('\\' :: (name ++ '(' :: t)) = some ('\\' :: name, '(' :: t) :=
    many1_append (List.cons_ne_nil _ _) (forall_mem_fullName hname)
      (forall_mem_head?_cons (by decide) t)
  have htarget (t : List Char) : classConstant ('\\' :: (type ++ (RuleSpec.classWord ++ t))) =
      some (String.ofList ('\\' :: type), t) :=
    classConstant_append (List.cons_ne_nil _ _) (forall_mem_fullName htype) t
  -- Each part of the reader takes what is written for it, up to the character that ends it.
  rw [accepts?, RuleSpec.constructionText, constructedRule, bind_eq (text_append (by decide) _),
    bind_eq (blanks1_cons (by decide) (hdense '\\' _ (by decide))), bind_eq (hruleName _),
    bind_eq (blanks_eq (hdense '(' _ (by decide))), bind_eq (char_cons '(' _),
    bind_eq (blanks_eq (hdense '\\' _ (by decide))), bind_eq (htarget _),
    bind_eq (blanks_eq (hdense ')' _ (by decide))), bind_eq (char_cons ')' _)]
  rfl

/-- A name in full is resolved by taking its backslash off, in every scope. -/
theorem resolve_ofList (scope : Scope) (h : ∀ c ∈ name, isNameChar c = true) :
    scope.resolve (String.ofList ('\\' :: name)) = String.ofList name := by
  have htrim : IsTrimmed ('\\' :: name) :=
    Text.isTrimmed_of_forall fun c hc => RuleSpec.isBlank_of_isNameChar (forall_mem_fullName h c hc)
  simp only [Scope.resolve, String.toList_ofList, htrim.trim_eq]

/-- The class of an enum rule is known by the last piece of its name. -/
theorem lastPiece_resolve (scope : Scope) (q : Namespace) (h : ∀ c ∈ name, isNameChar c = true)
    (hpiece : '\\' ∉ name) :
    Text.lastPiece '\\' (scope.resolve (String.ofList ('\\' :: (q.chars ++ name)))).toList =
      name := by
  rw [resolve_ofList scope (RuleSpec.isNameChar_append q h), String.toList_ofList,
    Text.lastPiece_append q.ends hpiece]

theorem constructed_enum (scope : Scope) (source : List Char) (q : Namespace) (target : String) :
    constructed scope source (String.ofList ('\\' :: (q.chars ++ "Enum".toList))) target =
      .enum (scope.resolve target) := by
  rw [constructed, lastPiece_resolve scope q RuleSpec.isNameChar_classes.1 (by decide)]
  rfl

theorem constructed_enumRule (scope : Scope) (source : List Char) (q : Namespace)
    (target : String) :
    constructed scope source (String.ofList ('\\' :: (q.chars ++ "EnumRule".toList))) target =
      .enumValue (scope.resolve target) := by
  rw [constructed, lastPiece_resolve scope q RuleSpec.isNameChar_classes.2 (by decide)]
  rfl

/-! ## Calls -/

theorem constructedRule_callText (name : List Char) (ps : List (List Char)) :
    accepts? constructedRule (RuleSpec.callText name ps) = none := by
  have hnew : text "new" (RuleSpec.callText name ps) = none :=
    text_eq_none (d := 'n') rfl (by decide) _
  rw [accepts?, constructedRule, bind_eq_none hnew]
  rfl

/-- **A call is read as its name, up to its arguments.** -/
theorem facadeCall_callText (h : isLowerSnake name = true) (ps : List (List Char)) :
    facadeCall (RuleSpec.callText name ps) = some (String.ofList name, itemList ps ++ [')']) := by
  obtain ⟨c, t, rfl, hc, ht⟩ := RuleSpec.exists_of_isLowerSnake h
  have hslash : char '\\' (RuleSpec.callText (c :: t) ps) = none := char_eq_none (by decide) _
  have hspace : text "Illuminate\\Validation\\" (RuleSpec.callText (c :: t) ps) = none :=
    text_eq_none (d := 'I') rfl (by decide) _
  have hstart : isIdentStart c = true := Text.isIdentStart_iff.mpr (.inr hc)
  have hname : identifier (c :: t ++ '(' :: (itemList ps ++ [')'])) =
      some (c :: t, '(' :: (itemList ps ++ [')'])) :=
    identifier_append hstart (fun d hd => RuleSpec.isIdentChar_of_lower (ht d hd))
      (forall_mem_head?_cons (by decide) _)
  have hblanks : blanks ('(' :: (itemList ps ++ [')'])) =
      some ((), '(' :: (itemList ps ++ [')'])) :=
    blanks_eq (forall_mem_head?_cons (by decide) _)
  rw [facadeCall, bind_eq (maybe_eq_none hslash), bind_eq (maybe_eq_none hspace),
    RuleSpec.callText, bind_eq (text_append (by decide) _), bind_eq hname, bind_eq hblanks,
    bind_eq (char_cons '(' _)]
  rfl

theorem callRule_callText (hname : isLowerSnake name = true) (h : ∀ p ∈ ps, IsItem p) :
    callRule scope (RuleSpec.callText name ps) =
      facadeRule scope (RuleSpec.callText name ps) (String.ofList name) ps := by
  have henclosed : enclosed? '(' (itemList ps ++ [')']) = some (itemList ps, []) :=
    (nested_itemList h).enclosed?_append (.inl rfl) []
  rw [callRule]
  simp only [constructedRule_callText, facadeCall_callText hname, henclosed, arguments_itemList h]

theorem callRule_constructionText (hname : ∀ c ∈ name, isNameChar c = true)
    (htype : ∀ c ∈ type, isNameChar c = true) :
    callRule scope (RuleSpec.constructionText name type) =
      .ok (constructed scope (RuleSpec.constructionText name type) (String.ofList ('\\' :: name))
        (String.ofList ('\\' :: type))) := by
  rw [callRule, constructedRule_constructionText hname htype]

theorem writtenValues_arrayText (ps : List (List Char)) :
    writtenValues [RuleSpec.arrayText ps] = splitCommas (itemList ps) := by
  rw [RuleSpec.arrayText, writtenValues, List.dropLast_concat]

/-- The call of a choice is the choice. -/
theorem facadeRule_in (scope : Scope) (source : List Char) (values : List String) :
    facadeRule scope source "in" [RuleSpec.arrayText (values.map RuleSpec.stringText)] =
      .ok (.choice values) := by
  have htexts : scalarTexts? (splitCommas (itemList (values.map RuleSpec.stringText))) =
      .ok (some values) :=
    scalarTexts?_of_map_trim (splitCommas_itemList fun _ => RuleSpec.isItem_of_mem_map)
  rw [facadeRule, writtenValues_arrayText, htexts]
  rfl

/-- A name in lower snake case is its own snake case. -/
theorem snakeCase_eq_self {n : String} (h : isLowerSnake n.toList = true) : snakeCase n = n := by
  obtain ⟨c, t, hn, hc, ht⟩ := RuleSpec.exists_of_isLowerSnake h
  have hfirst : c.toLower = c := Text.toLower_eq_self (Text.isUpper_eq_false (hc.imp_right .inr))
  have hrest : (t.flatMap fun d => if d.isUpper then ['_', d.toLower] else [d]) = t := by
    have hsame : ∀ d ∈ t, (if d.isUpper then ['_', d.toLower] else [d]) = [d] := fun d hd => by
      rw [if_neg (by simp [Text.isUpper_eq_false (ht d hd)])]
    rw [List.flatMap_def, List.map_congr_left hsame, ← List.flatMap_def, List.flatMap_singleton']
  rw [snakeCase, hn]
  simp only [hfirst, hrest]
  rw [← hn, String.ofList_toList]

/-- Any other call is a rule by its name. -/
theorem facadeRule_call (scope : Scope) (source : List Char) (n : RuleName) (values : List String) :
    facadeRule scope source n.text (values.map RuleSpec.stringText) =
      .ok (.call n.text values) := by
  have hnotIn : n.text ≠ "notIn" := by
    intro h
    have := n.isLowerSnake
    rw [h] at this
    exact absurd this (by decide)
  have htexts : ((values.map fun v => some (Value.text v)).filterMap id).map Rule.scalarText =
      values := by
    simp [List.filterMap_map, Function.comp_def, List.map_map, RuleSpec.scalarText_text]
  -- none of the names with a form of their own is that of a spec's call
  rw [facadeRule, mapM_scalar?]
  · change Except.ok _ = _
    rw [htexts, snakeCase_eq_self n.isLowerSnake]
  · exact fun _ _ h => absurd h n.ne_enum
  · exact fun _ _ h => absurd h n.ne_in
  · exact fun _ _ h => absurd h hnotIn

/-! ## Specs -/

theorem scalar?_arrayText (h : ∀ p ∈ ps, IsItem p) :
    scalar? (RuleSpec.arrayText ps) = .ok none := by
  have hwords : ∀ w ∈ ["true", "false", "null"], w.toList.take 1 ≠ ['['] := by decide
  exact scalar?_eq_none (RuleSpec.isItem_arrayText h).trimmed (by decide) (by decide)
    fun w hw heq => hwords w hw (congrArg (List.take 1) heq)

theorem scalar?_constructionText (hname : ∀ c ∈ name, isNameChar c = true)
    (htype : ∀ c ∈ type, isNameChar c = true) :
    scalar? (RuleSpec.constructionText name type) = .ok none := by
  -- one character does not tell `new` from `null`
  have hwords : ∀ w ∈ ["true", "false", "null"], w.toList.take 2 ≠ ['n', 'e'] := by decide
  exact scalar?_eq_none (RuleSpec.isItem_constructionText hname htype).trimmed (by decide)
    (by decide) fun w hw heq => hwords w hw (congrArg (List.take 2) heq)

theorem scalar?_callText (hname : ∀ c ∈ name, isNameChar c = true) (h : ∀ p ∈ ps, IsItem p) :
    scalar? (RuleSpec.callText name ps) = .ok none := by
  have hwords : ∀ w ∈ ["true", "false", "null"], w.toList.take 1 ≠ ['r'] := by decide
  exact scalar?_eq_none (RuleSpec.isItem_callText hname h).trimmed (by decide) (by decide)
    fun w hw heq => hwords w hw (congrArg (List.take 1) heq)

theorem readRule_constructionText (hname : ∀ c ∈ name, isNameChar c = true)
    (htype : ∀ c ∈ type, isNameChar c = true)
    (he : Text.trim e = RuleSpec.constructionText name type) :
    readRule scope e = .ok (constructed scope (RuleSpec.constructionText name type)
      (String.ofList ('\\' :: name)) (String.ofList ('\\' :: type))) := by
  have hscalar : scalar? (Text.trim e) = .ok none := by
    rw [he, scalar?_constructionText hname htype]
  have harray : arrayContent? (Text.trim e) = none := by
    rw [he]
    exact arrayContent?_eq_none (by decide)
  rw [readRule_of_call hscalar harray, he, callRule_constructionText hname htype]

theorem readRule_callText (hname : isLowerSnake name = true) (h : ∀ p ∈ ps, IsItem p)
    (he : Text.trim e = RuleSpec.callText name ps) :
    readRule scope e =
      facadeRule scope (RuleSpec.callText name ps) (String.ofList name) ps := by
  have hscalar : scalar? (Text.trim e) = .ok none := by
    rw [he, scalar?_callText (RuleSpec.isNameChar_of_isLowerSnake hname) h]
  have harray : arrayContent? (Text.trim e) = none := by
    rw [he]
    exact arrayContent?_eq_none (by decide)
  rw [readRule_of_call hscalar harray, he, callRule_callText hname h]

theorem readRule_arrayText (h : ∀ p ∈ ps, IsItem p) (he : Text.trim e = RuleSpec.arrayText ps) :
    readRule scope e = ((splitCommas (itemList ps)).mapM (readRule scope)).map Rule.list := by
  have hscalar : scalar? (Text.trim e) = .ok none := by
    rw [he, scalar?_arrayText h]
  have harray : arrayContent? (Text.trim e) = some (itemList ps) := by
    rw [he, arrayContent?_arrayText h]
  rw [readRule_of_array hscalar harray, filter_splitCommas_itemList h]

mutual
/-- **What is written is read**, in every scope and with any blanks around it. The specs of a list
are read off its parts, which have blanks around them. -/
theorem readRule_of_trim_eq_written (scope : Scope) (ns : EnumNamespaces) :
    (spec : RuleSpec) → (e : List Char) → Text.trim e = spec.written ns →
      readRule scope e = .ok spec.rule
  | .text s, e, he => by
    have hscalar : scalar? (Text.trim e) = .ok (some (.text s)) := by
      rw [scalar?_trim]
      exact scalar?_of_trim_eq he
    exact readRule_of_string hscalar
  | .list specs, e, he => by
    -- the parts found are the items written, up to the blank behind a comma
    have hitems := RuleSpec.isItem_of_mem_writtenAll ns specs
    rw [readRule_arrayText hitems he,
      mapM_readRule scope ns specs _ (splitCommas_itemList hitems)]
    rfl
  | .enum type, e, he => by
    rw [readRule_constructionText (RuleSpec.isNameChar_append _ RuleSpec.isNameChar_classes.1)
      type.isNameChar he, constructed_enum, resolve_ofList scope type.isNameChar,
      String.ofList_toList]
    rfl
  | .enumValue type, e, he => by
    rw [readRule_constructionText (RuleSpec.isNameChar_append _ RuleSpec.isNameChar_classes.2)
      type.isNameChar he, constructed_enumRule, resolve_ofList scope type.isNameChar,
      String.ofList_toList]
    rfl
  | .choice values, e, he => by
    have hitems : ∀ p ∈ [RuleSpec.arrayText (values.map RuleSpec.stringText)], IsItem p :=
      List.forall_mem_singleton.mpr (RuleSpec.isItem_arrayText fun _ => RuleSpec.isItem_of_mem_map)
    rw [readRule_callText (by decide) hitems he]
    exact facadeRule_in scope _ values
  | .call n values, e, he => by
    rw [readRule_callText n.isLowerSnake (fun _ => RuleSpec.isItem_of_mem_map) he,
      String.ofList_toList, facadeRule_call]
    rfl
theorem mapM_readRule (scope : Scope) (ns : EnumNamespaces) :
    (specs : List RuleSpec) → (parts : List (List Char)) →
      parts.map Text.trim = RuleSpec.writtenAll ns specs →
        parts.mapM (readRule scope) = .ok (RuleSpec.rules specs)
  | [], parts, h => by
    obtain rfl := List.map_eq_nil_iff.mp h
    rfl
  | spec :: specs, parts, h => by
    obtain ⟨p, parts, rfl, hp, hparts⟩ := List.map_eq_cons_iff.mp h
    rw [List.mapM_cons, readRule_of_trim_eq_written scope ns spec p hp,
      mapM_readRule scope ns specs parts hparts]
    rfl
end

/-- **Both front ends agree on a spec.** Its source form is read as its rule in every scope,
whatever namespaces the classes of enum rules are written with, and its manifest form stands for
that rule. -/
theorem readRule_written_and_ofValue_manifest (scope : Scope) (ns : EnumNamespaces)
    (spec : RuleSpec) :
    readRule scope (spec.written ns) = .ok spec.rule ∧ Rule.ofValue spec.manifest = spec.rule := by
  constructor
  · have htrim := (RuleSpec.isItem_written ns spec).trimmed.trim_eq
    exact readRule_of_trim_eq_written scope ns spec _ htrim
  · exact RuleSpec.ofValue_manifest spec

end PayloadTypes.Source
