import PayloadTypes.Proofs.Source.TypeSpec
import PayloadTypes.Proofs.Text.Join
/-!
# Converting written types

Converting undoes writing, layer by layer. A mark in front is told by the
first character, a union by its bars, and the other shapes by how they start
and end: each layer takes off its own marks and leaves the inner text whole
(`convert_text`). The classes that are recorded are those at the places that
are translated, but for those that hold a date.
-/

namespace PayloadTypes.Source

open TypeText (IsNested IsUnit arrayOf members null union)

variable {s t inner name key value : List Char} {args : List (List Char)} {l : Layout}

/-! ## The steps of a conversion -/

/-- A type that is no union and has no mark in front: no separator cuts it. -/
structure IsSingle (s : List Char) : Prop where
  /-- No separator cuts it. -/
  unit : IsUnit separators s
  /-- It has no mark in front. -/
  head_ne : '?' ∉ s.head?

theorem convert_nullable (s : List Char) :
    convert (String.ofList ('?' :: s)) =
      (convert (String.ofList s)).map fun x => union [x, null] := by
  rw [convert]
  split
  · next rest h =>
    rw [String.toList_ofList] at h
    rw [(List.cons.inj h).2]
  · next hne => exact absurd (String.toList_ofList) (hne s)

theorem convert_of_members {ms : List String} (hhead : '?' ∉ s.head?)
    (hms : members (String.ofList s) = ms) (hlen : 1 < ms.length) :
    convert (String.ofList s) = .union (ms.map convert) := by
  subst hms
  rw [convert]
  split
  · next rest h =>
    rw [String.toList_ofList] at h
    exact absurd (by rw [h]; rfl) hhead
  · rw [dif_pos hlen, List.attach_map_val]

/-- A type without a mark in front that is no union is converted by its shape. -/
theorem convert_of_shape {t : String} (hhead : '?' ∉ t.toList.head?)
    (hlen : ¬ 1 < (members t).length) :
    convert t =
      match (shape (firstPart t.toList)).inner? with
      | some inner =>
        (convert (String.ofList inner)).map (shape (firstPart t.toList)).around
      | none =>
        if shape (firstPart t.toList) = .generic then ⟨TypeText.unknown, []⟩
        else convertName (firstPart t.toList) := by
  rw [convert.eq_def t]
  split
  · next h => exact absurd (List.head?_eq_some_iff.mpr ⟨_, h⟩) hhead
  · rw [dif_neg hlen]
    split
    · next h => rw [h]
    · next h => rw [h]

theorem IsSingle.members_eq (h : IsSingle s) : members (String.ofList s) = [String.ofList s] := by
  have hmember : TypeText.IsMember (String.ofList s).toList := by
    rw [String.toList_ofList]
    exact ⟨h.unit.trimmed, h.unit.ne_nil, h.unit.part '|' (by decide)⟩
  exact hmember.members_eq

theorem IsSingle.firstPart_eq (h : IsSingle s) : firstPart s = s := by
  have hpart : TypeText.splitTopLevel '&' s = [s] := h.unit.part '&' (by decide)
  rw [firstPart, hpart, List.headD_cons, h.unit.trimmed.trim_eq]

/-- A type that is no union is converted by its shape. -/
theorem IsSingle.convert_eq (h : IsSingle s) :
    convert (String.ofList s) =
      match (shape s).inner? with
      | some inner => (convert (String.ofList inner)).map (shape s).around
      | none => if shape s = .generic then ⟨TypeText.unknown, []⟩ else convertName s := by
  have hhead : '?' ∉ (String.ofList s).toList.head? := by
    rw [String.toList_ofList]
    exact h.head_ne
  rw [convert_of_shape hhead (by simp [h.members_eq]), String.toList_ofList, h.firstPart_eq]

theorem IsSingle.convert_of_inner {sh : TypeShape} (h : IsSingle s) (hs : shape s = sh)
    (hinner : sh.inner? = some inner) :
    convert (String.ofList s) = (convert (String.ofList inner)).map sh.around := by
  rw [h.convert_eq, hs, hinner]

theorem IsSingle.convert_of_generic (h : IsSingle s) (hs : shape s = .generic) :
    convert (String.ofList s) = ⟨TypeText.unknown, []⟩ := by
  rw [h.convert_eq, hs]
  rfl

theorem IsSingle.convert_of_name (h : IsSingle s) (hs : shape s = .name) :
    convert (String.ofList s) = convertName s := by
  rw [h.convert_eq, hs]
  rfl

/-! ## Shapes -/

/-- What does not end with a bracket is no text in parentheses. -/
theorem grouped?_eq_none (h : ')' ∉ s.getLast?) : grouped? s = none := by
  rw [Option.eq_none_iff_forall_ne_some]
  intro inner hg
  obtain ⟨r, hr, hb⟩ := Option.bind_eq_some_iff.mp hg
  rw [Text.after?_eq_some hr, Text.before?_eq_some hb, ← List.append_assoc,
    List.getLast?_concat] at h
  exact h rfl

theorem before?_brackets_eq_none (h : ']' ∉ s.getLast?) : Text.before? ['[', ']'] s = none := by
  rw [Option.eq_none_iff_forall_ne_some]
  intro inner hb
  rw [Text.before?_eq_some hb] at h
  simp at h

theorem mem_of_generic?_eq_some (h : generic? s = some (name, inner)) : '<' ∈ s := by
  unfold generic? at h
  split at h
  · next c b rest _ hd =>
    have hmem : '<' ∈ Text.trimStart (s.dropWhile isGenericChar) := by simp [hd]
    exact (List.dropWhile_suffix _).subset ((List.dropWhile_suffix _).subset hmem)
  · cases h

theorem shape_inParens (s : List Char) : shape (inParens s) = .grouped s := by
  have hgroup : grouped? (inParens s) = some s := by
    have hafter : Text.after? ['('] (inParens s) = some (s ++ [')']) := Text.after?_append ['('] _
    rw [grouped?, hafter, Option.bind_some, Text.before?_append]
  rw [shape, hgroup]

theorem shape_brackets (s : List Char) : shape (s ++ ['[', ']']) = .array s := by
  have hgroup : grouped? (s ++ ['[', ']']) = none := grouped?_eq_none (by simp)
  rw [shape, hgroup, Text.before?_append]

/-- **A generic type is its name and what stands in its brackets.** -/
theorem generic?_append (n : GenericName) (s : List Char) :
    generic? (n.text ++ '<' :: (s ++ ['>'])) = some (n.text, s) := by
  have hangle : isGenericChar '<' = false := by decide
  have htake : (n.text ++ '<' :: (s ++ ['>'])).takeWhile isGenericChar = n.text := by
    rw [List.takeWhile_append_of_pos n.isGenericChar, List.takeWhile_cons_of_neg (by simp [hangle]),
      List.append_nil]
  have hdrop : Text.trimStart ((n.text ++ '<' :: (s ++ ['>'])).dropWhile isGenericChar) =
      '<' :: (s ++ ['>']) := by
    rw [List.dropWhile_append_of_pos n.isGenericChar, List.dropWhile_cons_of_neg (by simp [hangle])]
    exact Text.trimStart_eq_self (by simpa using by decide)
  obtain ⟨c, r, hname⟩ := List.exists_cons_of_ne_nil n.ne_nil
  unfold generic?
  rw [htake, hdrop, hname]
  simp [Text.before?_append]

theorem getLast?_genericText (l : Layout) (name : List Char) (args : List (List Char)) :
    (genericText l name args).getLast? = some '>' := by
  rw [genericText, ← List.cons_append, ← List.append_assoc, List.getLast?_concat]

theorem shape_genericText (n : GenericName) (args : List (List Char)) :
    shape (genericText l n.text args) =
      genericShape n.text ((l.comma.around ',').intercalate args) := by
  have hgroup : grouped? (genericText l n.text args) = none :=
    grouped?_eq_none (by simp [getLast?_genericText])
  have harray : Text.before? ['[', ']'] (genericText l n.text args) = none :=
    before?_brackets_eq_none (by simp [getLast?_genericText])
  rw [shape, hgroup, harray, genericText, generic?_append]

theorem genericShape_of_isList (n : ListName) (s : List Char) :
    genericShape n.text s =
      match genericArguments s with
      | [] => .generic
      | [value] => .list none value
      | key :: value :: more => .list (some key) ((value :: more).getLast (by simp)) :=
  if_pos n.isList

/-- **The arguments of a generic type are found again.** -/
theorem genericArguments_intercalate (l : Layout) (h : ∀ a ∈ args, IsUnit [','] a) :
    genericArguments ((l.comma.around ',').intercalate args) = args :=
  TypeText.trimmedParts_intercalate (by decide) (by decide) l.comma.allBlank.1 l.comma.allBlank.2
    (fun a ha => (h a ha).isPiece List.mem_cons_self)
    fun a ha => (h a (List.dropLast_subset _ ha)).nested.isClosed

theorem shape_list (n : ListName) (h : IsUnit [','] value) :
    shape (genericText l n.text [value]) = .list none value := by
  rw [shape_genericText, genericShape_of_isList,
    genericArguments_intercalate l (List.forall_mem_singleton.mpr h)]

theorem shape_map (n : ListName) (hkey : IsUnit [','] key) (hvalue : IsUnit [','] value) :
    shape (genericText l n.text [key, value]) = .list (some key) value := by
  rw [shape_genericText, genericShape_of_isList, genericArguments_intercalate l
    (List.forall_mem_cons.mpr ⟨hkey, List.forall_mem_singleton.mpr hvalue⟩)]
  rfl

theorem shape_generic (n : OtherName) (args : List (List Char)) :
    shape (genericText l n.text args) = .generic := by
  have hother : ¬ n.toGenericName.isList = true := by simp [n.isList]
  rw [shape_genericText]
  exact if_neg hother

/-- What ends with no bracket and has no angle bracket is a name. -/
theorem shape_of_not_mem (hround : ')' ∉ s) (hsquare : ']' ∉ s) (hangle : '<' ∉ s) :
    shape s = .name := by
  have hgroup : grouped? s = none :=
    grouped?_eq_none fun hc => hround (List.mem_of_mem_getLast? hc)
  have harray : Text.before? ['[', ']'] s = none :=
    before?_brackets_eq_none fun hc => hsquare (List.mem_of_mem_getLast? hc)
  have hgeneric : generic? s = none := by
    rw [Option.eq_none_iff_forall_ne_some]
    exact fun p hp => hangle (mem_of_generic?_eq_some hp)
  rw [shape, hgroup, harray, hgeneric]

/-- **A word has the shape of a name.** -/
theorem shape_of_isTermChar (h : ∀ c ∈ s, isTermChar c = true) : shape s = .name := by
  have hmarks : ∀ c ∈ typeMarks, c ∉ s := fun c hc hmem => not_mem_typeMarks (h c hmem) hc
  exact shape_of_not_mem (hmarks ')' (by decide)) (hmarks ']' (by decide)) (hmarks '<' (by decide))

/-! ## Names -/

theorem Keyword.lower_text (k : Keyword) : Text.lower k.text = k.word.toList := by
  rw [← k.lower]
  exact Text.lower_eq_map fun c hc => toNat_of_isGenericChar (k.isGenericChar c hc)

theorem convertName_keyword (k : Keyword) : convertName k.text = ⟨k.type, []⟩ := by
  rw [convertName, k.lower_text, String.ofList_toList, k.isWord.2.2]

namespace ClassRef

theorem fullName_text (r : ClassRef) :
    PayloadTypes.fullName (String.ofList r.text) = r.fullName := by
  have hunit := isUnit_of_isTermChar r.ne_nil r.isTermChar
  rw [PayloadTypes.fullName, String.toList_ofList, hunit.trimmed.trim_eq, fullName]

theorem shortName_fullName (r : ClassRef) : shortName r.fullName = r.segment := by
  rw [shortName, fullName, String.toList_ofList, Text.lastPiece_dropWhile, segment]

/-- The last character of the name is no backslash, so something is left of it. -/
theorem fullName_ne_empty (r : ClassRef) : r.fullName ≠ "" := by
  intro hempty
  have hall : ∀ c ∈ r.text, (c == '\\') = true := by
    rw [← List.dropWhile_eq_nil_iff, ← String.toList_ofList (l := r.text.dropWhile (· == '\\'))]
    exact congrArg String.toList hempty
  have hlast := List.getLast?_eq_some_getLast r.ne_nil
  refine r.last_ne ?_
  rw [hlast, eq_of_beq (hall _ (List.getLast_mem r.ne_nil))]
  rfl

theorem dropEndWhile_text (r : ClassRef) : Text.dropEndWhile (· == '\\') r.text = r.text := by
  refine Text.dropEndWhile_eq_self fun c hc => beq_eq_false_iff_ne.mpr ?_
  rintro rfl
  exact r.last_ne hc

end ClassRef

/-- The references to the classes of a row that hold no dates. -/
def recorded (rs : List ClassRef) : List String :=
  (rs.filter fun r => !r.isDate).map fun r => String.ofList r.text

theorem recorded_append (rs rs' : List ClassRef) :
    recorded (rs ++ rs') = recorded rs ++ recorded rs' := by
  rw [recorded, List.filter_append, List.map_append, recorded, recorded]

theorem convertName_named (r : ClassRef) : convertName r.text = ⟨r.type, recorded [r]⟩ := by
  have hdate : dateClasses.contains (String.ofList (Text.lastPiece '\\' r.text)) = r.isDate := rfl
  rw [convertName, r.not_keyword]
  simp only [r.dropEndWhile_text, hdate, r.fullName_text, r.shortName_fullName]
  cases h : r.isDate <;> simp [recorded, ClassRef.type, h]

/-! ## Keys -/

theorem typeMarks_toLower : (typeMarks.all fun c => decide (c.toNat < 128) && c.toLower == c &&
    textKeys.all fun w => !w.toList.contains c) = true := by decide +kernel

/-- A text with a mark in it is no key that makes a list a record. -/
theorem textKeys_contains_of_mark {c : Char} (hc : c ∈ typeMarks) (h : c ∈ s) :
    textKeys.contains (String.ofList (Text.lower s)) = false := by
  have hmark := List.all_eq_true.mp typeMarks_toLower c hc
  simp only [Bool.and_eq_true, decide_eq_true_eq, beq_iff_eq, List.all_eq_true,
    Bool.not_eq_true'] at hmark
  obtain ⟨⟨hcode, hlower⟩, hkeys⟩ := hmark
  rw [← Bool.not_eq_true]
  intro hkey
  have hmem := hkeys _ (List.contains_iff_mem.mp hkey)
  have hkept := Text.mem_lower hcode h
  rw [hlower] at hkept
  simp [hkept] at hmem

theorem textKeys_lookup :
    (textKeys.all fun w => (keywordTypes.lookup w).isSome) = true := by decide +kernel

theorem ClassRef.textKeys_contains (r : ClassRef) :
    textKeys.contains (String.ofList (Text.lower r.text)) = false := by
  rw [← Bool.not_eq_true]
  intro hkey
  have := List.all_eq_true.mp textKeys_lookup _ (List.contains_iff_mem.mp hkey)
  rw [r.not_keyword] at this
  cases this

theorem angle_mem_genericText (l : Layout) (name : List Char) (args : List (List Char)) :
    '<' ∈ genericText l name args :=
  List.mem_append_right _ List.mem_cons_self

namespace TypeTerm

/-- **A key makes a list a record exactly when it is one of those keywords.** -/
theorem textKeys_contains (l : Layout) (t : TypeTerm) :
    textKeys.contains (String.ofList (Text.lower (t.text l))) = t.isTextKey := by
  cases t with
  | keyword k => rw [text, k.lower_text, String.ofList_toList, isTextKey]
  | named r => exact r.textKeys_contains
  -- every other type has a mark of its own
  | grouped t => exact textKeys_contains_of_mark (c := '(') (by decide) List.mem_cons_self
  | array t => exact textKeys_contains_of_mark (c := '[') (by decide) (by simp [text])
  | list name value =>
    exact textKeys_contains_of_mark (c := '<') (by decide) (angle_mem_genericText ..)
  | map name key value =>
    exact textKeys_contains_of_mark (c := '<') (by decide) (angle_mem_genericText ..)
  | generic name args =>
    exact textKeys_contains_of_mark (c := '<') (by decide) (angle_mem_genericText ..)
  | nullable t => exact textKeys_contains_of_mark (c := '?') (by decide) List.mem_cons_self
  | union first second more =>
    refine textKeys_contains_of_mark (c := '|') (by decide) ?_
    rw [text, List.intercalate_cons_cons]
    simp [Spacing.around]

end TypeTerm

/-! ## What is in front of a type -/

theorem head_ne_of_isTermChar (h : ∀ c ∈ s, isTermChar c = true) : '?' ∉ s.head? :=
  fun hc => not_mem_typeMarks (h _ (List.mem_of_mem_head? hc)) (by decide)

theorem head_ne_operandText {isOpen : Bool} (h : isOpen = false → '?' ∉ s.head?) :
    '?' ∉ (operandText isOpen s).head? := by
  cases isOpen with
  | true => simp [operandText, inParens]
  | false => exact h rfl

theorem head_ne_append (hs : s ≠ []) (h : '?' ∉ s.head?) : '?' ∉ (s ++ t).head? := by
  rwa [List.head?_append_of_ne_nil _ hs]

theorem head_ne_genericText (l : Layout) (n : GenericName) (args : List (List Char)) :
    '?' ∉ (genericText l n.text args).head? :=
  head_ne_append n.ne_nil (head_ne_of_isTermChar n.isTermChar)

namespace TypeTerm

/-- **Only a nullable type has its mark in front**, unions having it in parentheses. -/
theorem head_ne_text (l : Layout) : (t : TypeTerm) → t.isOpen = false → '?' ∉ (t.text l).head?
  | .keyword k, _ => head_ne_of_isTermChar k.isTermChar
  | .named r, _ => head_ne_of_isTermChar r.isTermChar
  | .grouped t, _ => by simp [text, inParens]
  | .array t, _ => head_ne_append (isUnit_operandText (isUnit_text l t)).ne_nil
      (head_ne_operandText fun h => head_ne_text l t h)
  | .list name _, _ | .map name _ _, _ => head_ne_genericText l name.toGenericName _
  | .generic name _, _ => head_ne_genericText l name.toGenericName _

theorem head_ne_union (l : Layout) (first second : TypeTerm) (more : List TypeTerm) :
    '?' ∉ ((union first second more).text l).head? := by
  have hne := (isUnit_operandText (isUnit_text l first)).ne_nil
  rw [text, List.intercalate_cons_cons, List.append_assoc]
  exact head_ne_append hne (head_ne_operandText (head_ne_text l first))

theorem isSingle_text (l : Layout) (t : TypeTerm) (h : t.isOpen = false) : IsSingle (t.text l) :=
  ⟨uncut_of_not_isOpen h ▸ isUnit_text l t, head_ne_text l t h⟩

end TypeTerm

theorem isSingle_inParens (h : IsNested s) : IsSingle (inParens s) :=
  ⟨isUnit_inParens h, by simp [inParens]⟩

/-- **Parentheses do not change what a type is converted to.** -/
theorem convert_inParens (h : IsNested s) :
    convert (String.ofList (inParens s)) = convert (String.ofList s) :=
  (isSingle_inParens h).convert_of_inner (shape_inParens s) rfl

theorem convert_operandText {isOpen : Bool} (h : IsNested s) :
    convert (String.ofList (operandText isOpen s)) = convert (String.ofList s) := by
  cases isOpen with
  | true => exact convert_inParens h
  | false => rfl

/-! ## Unions -/

/-- **The operands of a union are its members.** -/
theorem members_bars (g : Spacing) {ps : List (List Char)} (h : ∀ p ∈ ps, IsUnit separators p) :
    members (String.ofList ((g.around '|').intercalate ps)) = ps.map String.ofList := by
  have hparts : TypeText.trimmedParts '|' ((g.around '|').intercalate ps) = ps :=
    TypeText.trimmedParts_intercalate (by decide) (by decide) g.allBlank.1 g.allBlank.2
      (fun p hp => (h p hp).isPiece (by decide))
      fun p hp => (h p (List.dropLast_subset _ hp)).nested.isClosed
  rw [TypeText.members_eq, String.toList_ofList]
  exact congrArg (List.map String.ofList) hparts

theorem barred_concat {ms : List String} (hne : ms ≠ []) (m : String) :
    barred (ms ++ [m]) = barred [barred ms, m] := by
  have hne' : ms.map String.toList ≠ [] := by simpa using hne
  rw [← String.toList_inj]
  simp only [barred, String.toList_intercalate, List.map_append, List.map_cons, List.map_nil]
  rw [Text.intercalate_concat hne', List.intercalate_cons_cons, List.intercalate_singleton,
    List.append_assoc]

namespace TypeTerm

/-- What a type is converted to. -/
def converted (t : TypeTerm) : Converted := ⟨t.type, recorded t.classes⟩

/-- Null behind a type without null. -/
theorem union_null {t : TypeTerm} (h : t.nullable.nullsApart = true) :
    TypeText.union [t.type, null] = t.nullable.type := by
  simp only [nullsApart, Bool.and_eq_true, Bool.not_eq_true', List.contains_eq_mem,
    decide_eq_false_iff_not] at h
  -- a translation that is null alone would have it for a member
  have hne : t.type ≠ null := by
    intro heq
    have hmembers := members_type h.2
    rw [heq] at hmembers
    exact h.1 (hmembers ▸ by decide)
  have hnodup : [t.type, null].Nodup := by simpa using hne
  rw [TypeText.union, TypeText.eraseDups_eq_self hnodup, type, type, members,
    barred_concat t.members_ne_nil]
  rfl

theorem flatMap_members {ts : List TypeTerm} (h : nullsApartAll ts = true) :
    (ts.map converted).flatMap (fun c => TypeText.members c.type) = membersAll ts := by
  induction ts with
  | nil => rfl
  | cons t ts ih =>
    simp only [nullsApartAll, Bool.and_eq_true] at h
    rw [List.map_cons, List.flatMap_cons, ih h.2, membersAll]
    exact congrArg (· ++ membersAll ts) (members_type h.1)

theorem flatMap_references (ts : List TypeTerm) :
    (ts.map converted).flatMap (·.references) = recorded (classesAll ts) := by
  induction ts with
  | nil => rfl
  | cons t ts ih =>
    rw [List.map_cons, List.flatMap_cons, ih, classesAll, recorded_append, converted]

theorem union_converted {first second : TypeTerm} {more : List TypeTerm}
    (h : (union first second more).nullsApart = true) :
    Converted.union ((first :: second :: more).map converted) =
      (union first second more).converted := by
  have hall : nullsApartAll (first :: second :: more) = true := h
  rw [Converted.union, flatMap_members hall, flatMap_references]
  rfl

-- The induction is on the term, with the operands of a union beside it. Operands and arguments
-- come back as they were written because no separator cuts them.
mutual
/-- **What is converted is the translation of the type**, and what is recorded are its classes. -/
theorem convert_text (l : Layout) : (t : TypeTerm) → t.nullsApart = true →
    convert (String.ofList (t.text l)) = t.converted
  | .keyword k, _ => by
    rw [(isSingle_text l (.keyword k) rfl).convert_of_name (shape_of_isTermChar k.isTermChar)]
    exact convertName_keyword k
  | .named r, _ => by
    rw [(isSingle_text l (.named r) rfl).convert_of_name (shape_of_isTermChar r.isTermChar)]
    exact convertName_named r
  | .grouped t, h => by
    rw [text, convert_inParens (isUnit_text l t).nested, convert_text l t h]
    rfl
  | .array t, h => by
    -- the brackets leave the operand, which may stand in parentheses
    rw [(isSingle_text l (.array t) rfl).convert_of_inner (shape_brackets _) rfl,
      convert_operandText (isUnit_text l t).nested, convert_text l t h]
    rfl
  | .list name value, h => by
    have hvalue := isUnit_argument (isUnit_text l value)
    rw [(isSingle_text l (.list name value) rfl).convert_of_inner (shape_list name hvalue) rfl,
      convert_text l value h]
    rfl
  | .map name key value, h => by
    have hkey := isUnit_argument (isUnit_text l key)
    have hvalue := isUnit_argument (isUnit_text l value)
    -- the key is looked at as a text, and only the value is converted
    have haround : (TypeShape.list (some (key.text l)) (value.text l)).around value.type =
        (map name key value).type := by
      rw [TypeShape.around, textKeys_contains]
      rfl
    rw [(isSingle_text l (.map name key value) rfl).convert_of_inner
      (shape_map name hkey hvalue) rfl, convert_text l value h]
    exact congrArg (Converted.mk · _) haround
  | .generic name args, _ =>
    (isSingle_text l (.generic name args) rfl).convert_of_generic (shape_generic name _)
  | .nullable t, h => by
    have hinner : t.nullsApart = true := by
      simp only [nullsApart, Bool.and_eq_true] at h
      exact h.2
    rw [text, convert_nullable, convert_operandText (isUnit_text l t).nested,
      convert_text l t hinner]
    exact congrArg (Converted.mk · _) (union_null h)
  | .union first second more, h => by
    have hall : nullsApartAll (first :: second :: more) = true := h
    have hmembers := members_bars l.bar (isUnit_of_mem_operandTexts l (first :: second :: more))
    simp only [nullsApart, Bool.and_eq_true] at h
    obtain ⟨hfirst, hsecond, hmore⟩ := h
    -- each operand is converted on its own, and their members are those of the translations
    rw [convert_of_members (head_ne_union l first second more) hmembers (by simp [operandTexts]),
      ← union_converted hall]
    refine congrArg Converted.union ?_
    simp only [operandTexts, List.map_cons]
    rw [convert_operandText (isUnit_text l first).nested, convert_text l first hfirst,
      convert_operandText (isUnit_text l second).nested, convert_text l second hsecond,
      convert_operandTexts l more hmore]
theorem convert_operandTexts (l : Layout) : (ts : List TypeTerm) → nullsApartAll ts = true →
    ((operandTexts l ts).map String.ofList).map convert = ts.map converted
  | [], _ => rfl
  | t :: ts, h => by
    simp only [nullsApartAll, Bool.and_eq_true] at h
    rw [operandTexts, List.map_cons, List.map_cons, convert_operandText (isUnit_text l t).nested,
      convert_text l t h.1, convert_operandTexts l ts h.2, List.map_cons]
end

end TypeTerm

/-! ## Declared types -/

theorem convertDeclared_of_isUnit {seps : List Char} (h : IsUnit seps s) :
    convertDeclared (some (String.ofList s)) = convert (String.ofList s) := by
  obtain ⟨c, r, hs⟩ := List.exists_cons_of_ne_nil h.ne_nil
  rw [convertDeclared, String.toList_ofList, h.trimmed.trim_eq, hs]

/-- A class alone is translated as such. -/
theorem declaredType_named (r : ClassRef) :
    declaredType false (some (String.ofList r.text)) = r.type := by
  have hsingle : IsSingle r.text :=
    ⟨isUnit_of_isTermChar r.ne_nil r.isTermChar, head_ne_of_isTermChar r.isTermChar⟩
  rw [declaredType, convertDeclared_of_isUnit hsingle.1,
    hsingle.convert_of_name (shape_of_isTermChar r.isTermChar), convertName_named]
  rfl

/-- **A declared type is translated as it is put together**, and the classes that are recorded are
those at the places that are translated, but for those that hold a date. -/
theorem declaredType_text (l : Layout) (t : TypeTerm) (known : Symbols)
    (h : t.nullsApart = true) :
    declaredType false (some (String.ofList (t.text l))) = t.type ∧
      ∀ n, n ∈ (known.addAll
          (convertDeclared (some (String.ofList (t.text l)))).references).names ↔
        n ∈ known.names ∨ ∃ r ∈ t.classes, r.isDate = false ∧ r.fullName = n := by
  have hconvert : convertDeclared (some (String.ofList (t.text l))) = t.converted := by
    rw [convertDeclared_of_isUnit (t.isUnit_text l), t.convert_text l h]
  refine ⟨congrArg Converted.type hconvert, fun n => ?_⟩
  rw [hconvert, Symbols.mem_names_addAll]
  -- A class at a place that is translated is recorded unless it is a date, and nothing else is.
  refine or_congr_right ⟨?_, ?_⟩
  · rintro ⟨⟨reference, hreference, rfl⟩, -⟩
    obtain ⟨r, hr, rfl⟩ := List.mem_map.mp hreference
    obtain ⟨hmem, hdate⟩ := List.mem_filter.mp hr
    exact ⟨r, hmem, by simpa using hdate, r.fullName_text.symm⟩
  · rintro ⟨r, hr, hdate, rfl⟩
    have hkept : r ∈ t.classes.filter fun r => !r.isDate :=
      List.mem_filter.mpr ⟨hr, by simp [hdate]⟩
    exact ⟨⟨_, List.mem_map_of_mem hkept, r.fullName_text⟩, r.fullName_ne_empty⟩

/-! ## A type with every layer -/

/-- A user. -/
def userRef : ClassRef where
  text := "App\\Models\\User".toList
  isClassChar := List.all_eq_true.mp (by decide)
  ne_nil := by decide
  last_ne := by decide
  not_keyword := by decide +kernel

/-- A date, by its full name. -/
def carbonRef : ClassRef where
  text := "\\Carbon\\Carbon".toList
  isClassChar := List.all_eq_true.mp (by decide)
  ne_nil := by decide
  last_ne := by decide
  not_keyword := by decide +kernel

/-- The type of texts, with a capital letter. -/
def stringKeyword : Keyword where
  word := "string"
  type := "string"
  mem := by decide
  text := "String".toList
  lower := by decide

/-- The type of nothing. -/
def voidKeyword : Keyword where
  word := "void"
  type := null
  mem := by decide
  text := "void".toList
  lower := by decide

/-- A list of values by keys. -/
def arrayName : ListName where
  text := "array".toList
  ne_nil := by decide
  isGenericChar := List.all_eq_true.mp (by decide)
  isList := by decide

/-- The name of a class as a text. -/
def classStringName : OtherName where
  text := "class-string".toList
  ne_nil := by decide
  isGenericChar := List.all_eq_true.mp (by decide)
  isList := by decide

/-- No blanks around bars and one behind commas. -/
def docLayout : Layout where
  bar := ⟨[], [], Text.allBlank_nil, Text.allBlank_nil⟩
  comma := ⟨[], [' '], Text.allBlank_nil, Text.allBlank_space⟩

/-- Users and dates by name, the classes of users, or nothing. -/
def visitsType : TypeTerm :=
  .union
    (.nullable (.map arrayName (.keyword stringKeyword)
      (.array (.union (.named userRef) (.nullable (.named carbonRef)) []))))
    (.generic classStringName [.named userRef]) [.keyword voidKeyword]

theorem declaredType_text_visits :
    visitsType.nullsApart = true ∧
      visitsType.text docLayout =
        "(?array<String, (App\\Models\\User|(?\\Carbon\\Carbon))[]>)|".toList ++
          "class-string<App\\Models\\User>|void".toList ∧
      visitsType.type = "Record<string, Array<User | string | null>> | null | unknown" ∧
      declaredType false (some (String.ofList (visitsType.text docLayout))) = visitsType.type ∧
      ∀ n, n ∈ (Symbols.empty.addAll
          (convertDeclared (some (String.ofList (visitsType.text docLayout)))).references).names ↔
        n ∈ Symbols.empty.names ∨ ∃ r ∈ visitsType.classes, r.isDate = false ∧ r.fullName = n :=
  have h : visitsType.nullsApart = true := by decide +kernel
  ⟨h, by decide +kernel, by decide +kernel, declaredType_text docLayout visitsType .empty h⟩

end PayloadTypes.Source
